import Mathlib.Data.Finmap
import Marlin.Marlind.CmdAttach

/-!
# A reload that the guard does not see

`conf_check_against_previous` compares a new file with the last one that was fully
applied.  A reload that stops halfway has already written part of another file, and
the guard never compares anything with that file.  This module follows the calls of
such a run one by one.
-/

namespace Marlin

open Marlin.Library
open Marlin.Library.Stepwise (Runs Halts Leads)

structure Env.Plain (e : Env) : Prop where
  opened : ∀ name, e.mapFd name = .opened
  reads : ∀ map n, e.readFault map n = none
  memory : ∀ n, e.oom n = false
  stack : ∀ n, e.stack n = 0

structure Maps.Bare (mp : Maps) : Prop where
  txPorts : mp.txPorts = ∅
  aclAllowV4 : mp.aclAllowV4 = ∅
  aclBlockV4 : mp.aclBlockV4 = ∅
  aclAllowV6 : mp.aclAllowV6 = ∅
  aclBlockV6 : mp.aclBlockV6 = ∅

structure MarlinConf.Bare (conf : MarlinConf) : Prop where
  maxFrameSet : conf.inst.maxFrameSet = true
  txPorts : conf.inst.txPorts = []
  allowV4 : conf.acl.allowV4 = []
  blockV4 : conf.acl.blockV4 = []
  allowV6 : conf.acl.allowV6 = []
  blockV6 : conf.acl.blockV6 = []

/-! ## The calls, one by one -/

section Calls

variable {e : Env} (he : e.Plain) (n : Nat) (s : Maps)

include he

theorem openMaps_runs : Runs openMaps e n s () n s := by
  constructor <;>
    simp [openMaps, findMapFd, Bind.bind, Stepwise.bind, Stepwise.ask, he.opened,
      Pure.pure, Stepwise.pure]

theorem callocFails_runs : Runs callocFails e n s false (n + 1) s := by
  constructor <;> simp [callocFails, Stepwise.look, he.memory]

theorem vipMap_getNextKey_runs {prev : Option VipKey} (next : Except Errno VipKey)
    (hnext : next = match s.vipMap.nextKey prev with
      | none => .error .enoent
      | some key => .ok key) :
    Runs (vipMapRef.getNextKey prev) e n s next (n + 1) s := by
  subst hnext
  constructor <;>
    simp only [TableRef.getNextKey, Stepwise.look, he.reads, vipMapRef]
  cases s.vipMap.nextKey prev <;> rfl

theorem readVipBaseline_empty_runs (hempty : s.vipMap = ∅) :
    Runs readVipBaseline e n s [] (n + 1) s := by
  unfold readVipBaseline readVipBaselineFrom
  refine (vipMap_getNextKey_runs he n s (.error .enoent) ?_).bind ⟨rfl, rfl, rfl⟩
  rw [hempty]
  rfl

theorem readVipBaseline_single_runs {key : VipKey} {vipMeta : VipMeta}
    (hsingle : s.vipMap = AList.singleton key vipMeta) (hnum : vipMeta.vipNum < maxVips) :
    Runs readVipBaseline e n s [⟨key, vipMeta.vipNum⟩] (n + 3) s := by
  unfold readVipBaseline readVipBaselineFrom
  refine (vipMap_getNextKey_runs he n s (.ok key) (by rw [hsingle]; rfl)).bind ?_
  have hlookup : Runs (vipMapRef.lookupElem key) e (n + 1) s (.ok vipMeta) (n + 2) s := by
    constructor <;>
      simp [TableRef.lookupElem, Stepwise.look, he.reads, vipMapRef, hsingle,
        AList.singleton, AList.lookup]
  refine hlookup.bind ?_
  simp only [ge_iff_le, Nat.not_le.mpr hnum, if_false]
  unfold readVipBaselineFrom
  refine (vipMap_getNextKey_runs he (n + 2) s (.error .enoent) ?_).bind
    ⟨rfl, rfl, rfl⟩
  rw [hsingle]
  simp [Table.nextKey, AList.singleton, AList.keys, List.keys]

theorem reconcileAcl_runs {K : Type} [DecidableEq K] (ref : TableRef K Nat)
    (want : ConfAclEntry → K) (family : String) (hempty : ref.get s = ∅) :
    Runs (reconcileAcl ref want family []) e n s () (n + 2) s := by
  constructor <;>
    simp [reconcileAcl, Bind.bind, Stepwise.bind, callocFails, Stepwise.look, he.memory,
      TableRef.collectKeys, TableRef.getNextKey, he.reads, hempty, Table.nextKey,
      Stepwise.forEach, Pure.pure, Stepwise.pure, maxAclEntries]

theorem removeStaleTxPorts_runs (hempty : s.txPorts = ∅) (want : List Nat) :
    Runs (removeStaleTxPorts want) e n s () (n + 1) s := by
  constructor <;>
    simp [removeStaleTxPorts, Bind.bind, Stepwise.bind, Stepwise.look, txPortsRef,
      TableRef.collectKeys, TableRef.getNextKey, he.reads, hempty, Table.nextKey,
      Stepwise.forEach, Pure.pure, Stepwise.pure, maxTxPorts]

theorem readOldAclLists_runs : Runs readOldAclLists e n s s.config.aclLists (n + 1) s := by
  constructor <;>
    simp [readOldAclLists, lookupConfig, Bind.bind, Stepwise.bind, Stepwise.look, he.reads,
      Pure.pure, Stepwise.pure]

theorem retireBackends_runs (conf : MarlinConf) (ids : List Nat)
    (hids : ∀ id ∈ ids, id < maxBackends ∧ (s.backends id).id ≠ id) :
    Runs (Stepwise.forEach (retireBackend .layout conf) ids) e n s () (n + 2 * ids.length) s := by
  induction ids generalizing n with
  | nil => exact ⟨rfl, rfl, rfl⟩
  | cons id ids ih =>
      obtain ⟨⟨hlt, hne⟩, hrest⟩ := List.forall_mem_cons.mp hids
      have hkey := BackendKeys.layout_ofId_zero hlt
      have hone : Runs (retireBackend .layout conf id) e n s () (n + 2) s := by
        constructor <;>
          simp [retireBackend, localKey, lookupBackend, Bind.bind, Stepwise.bind,
            Stepwise.look, he.stack, he.reads, hkey, hlt, hne, Pure.pure, Stepwise.pure]
      have hcount : n + 2 * (id :: ids).length = n + 2 + 2 * ids.length := by
        simp only [List.length_cons]
        omega
      rw [hcount]
      exact hone.bind (ih (n + 2) hrest)

omit he

theorem writeConfig_runs {conf : MarlinConf} (hframe : conf.inst.maxFrameSet = true)
    (aclLists : UInt16) (hwrite : e.writeFault n = none) :
    Runs (writeConfig conf aclLists) e n s () (n + 1)
      { s with config := configValue conf aclLists conf.inst.maxFrame } := by
  constructor <;>
    simp [writeConfig, settleMaxFrame, hframe, updateConfig, Bind.bind, Stepwise.bind,
      Stepwise.put, hwrite, Pure.pure, Stepwise.pure]

theorem writeBackend_runs {b : ConfBackend} (hegress : b.hasEgress = false)
    (hkey : BackendKeys.layout.ofConf b = b.id) (hid : b.id < maxBackends)
    (hwrite : e.writeFault n = none) :
    Runs (writeBackend .layout b) e n s () (n + 1)
      { s with backends := Function.update s.backends b.id (backendValue b 0) } := by
  constructor <;>
    simp [writeBackend, egressIfindex, hegress, updateBackend, hkey, hid, Bind.bind,
      Stepwise.bind, Stepwise.put, hwrite, Pure.pure, Stepwise.pure]

theorem vipMap_updateElem_runs {key : VipKey} {vipMeta : VipMeta}
    (hroom : s.vipMap.keys.length < maxVips) (hwrite : e.writeFault n = none) :
    Runs (vipMapRef.updateElem key vipMeta) e n s none (n + 1)
      { s with vipMap := s.vipMap.update (e.slot n) key vipMeta } := by
  constructor <;>
    simp [TableRef.updateElem, vipMapRef, Stepwise.put, hwrite, Nat.not_le.mpr hroom]

theorem vipMap_updateElem_fault {key : VipKey} {vipMeta : VipMeta} {fault : WriteFault}
    (hwrite : e.writeFault n = some fault) :
    Runs (vipMapRef.updateElem key vipMeta) e n s (some fault.errno) (n + 1) s := by
  constructor <;> simp [TableRef.updateElem, Stepwise.put, hwrite]

theorem writeFwdBlock_runs (he : e.Plain) {num : Nat} (hnum : num < maxVips)
    (values : Nat → Nat) (hwrite : e.writeFault (n + 1) = none) :
    ∃ fwdTable, Runs (writeFwdBlock num values) e n s () (n + 2)
        { s with fwdTable := fwdTable } ∧
      ∀ row < tableSize, fwdTable (fwdIndex num row) = values row := by
  have hmeets := updateFwdBatch_triple (e := e) (G := False) (R := fun _ _ => True)
    (P := fun mp => ∃ fwdTable, mp = { s with fwdTable := fwdTable })
    (fwdBlock_functional hnum values) (fwdBlock_lt hnum values)
    (fun kv _ mp hmp => ⟨trivial, by obtain ⟨fwdTable, rfl⟩ := hmp; exact ⟨_, rfl⟩⟩)
    (n + 1) s ⟨s.fwdTable, rfl⟩
  have hvalid : (fwdBlock num values).takeWhile (fun kv => kv.1 < maxFwdEntries) =
      fwdBlock num values :=
    List.takeWhile_eq_self_iff.mpr fun kv hkv => by simpa using fwdBlock_lt hnum values kv hkv
  have hlength : (fwdBlock num values).length = tableSize := by simp [fwdBlock]
  have hresult : (updateFwdBatch (fwdBlock num values) e (n + 1) s).result =
      some (none, tableSize) := by
    simp only [updateFwdBatch, Stepwise.put, hwrite, hvalid, hlength, if_true]
  obtain ⟨⟨fwdTable, hstore⟩, hwritten⟩ := hmeets.finished _ hresult
  refine ⟨fwdTable, (callocFails_runs he n s).bind ?_, ?_⟩
  · have hbatch : Runs (updateFwdBatch (fwdBlock num values)) e (n + 1) s (none, tableSize)
        (n + 2) { s with fwdTable := fwdTable } := ⟨hresult, rfl, hstore⟩
    exact hbatch.bind ⟨rfl, rfl, rfl⟩
  · intro row hrow
    have hread := (hwritten rfl).fwdRow hnum hrow
    rw [hstore] at hread
    exact hread

theorem failErrno_halts {α : Type} (text : String) (errno : Errno) :
    Halts (failErrno text errno : Reconcile α) e n s s := by
  constructor <;>
    simp [failErrno, fail, Bind.bind, Stepwise.bind, Stepwise.ask, Stepwise.say,
      Stepwise.stop]

end Calls

/-! ## The parts of a reconcile that have nothing to do -/

section Parts

variable {e : Env} (he : e.Plain) {n : Nat} {s : Maps} {conf : MarlinConf}

include he

theorem applyAside_runs (hconf : conf.Bare) (hs : s.Bare) :
    Runs (applyAside conf) e n s [] (n + 8) s := by
  unfold applyAside
  rw [hconf.allowV4, hconf.blockV4, hconf.allowV6, hconf.blockV6, hconf.txPorts]
  refine (reconcileAcl_runs he n s aclAllowV4Ref wantAclV4 "v4" hs.aclAllowV4).bind ?_
  refine (reconcileAcl_runs he (n + 2) s aclBlockV4Ref wantAclV4 "v4" hs.aclBlockV4).bind ?_
  refine (reconcileAcl_runs he (n + 4) s aclAllowV6Ref wantAclV6 "v6" hs.aclAllowV6).bind ?_
  refine (reconcileAcl_runs he (n + 6) s aclBlockV6Ref wantAclV6 "v6" hs.aclBlockV6).bind ?_
  exact ⟨rfl, rfl, rfl⟩

/-- With nothing stale to remove, a reconcile comes down to writing the maps. -/
theorem reconcileApply_leads {S : Type} [LinearOrder S] (score : UInt64 → Nat → S)
    (hconf : conf.Bare) {baseline : List VipAllocBaseline} {n' : Nat}
    (hread : Runs readVipBaseline e n s baseline n' s)
    (hkept : ∀ row ∈ baseline, keyInConf conf row.key = true)
    (hcount : conf.vips.length ≤ maxVips)
    (hok : (vipAlloc (conf.vips.map ConfVip.keys) baseline).ok = true)
    (hwrite : e.writeFault (n' + 1) = none) :
    ∃ config, Leads (reconcileApply score .layout conf) e n s
      (do
        applyMaps score .layout
          (conf.withNums (vipAlloc (conf.vips.map ConfVip.keys) baseline).num)
          (vipAlloc (conf.vips.map ConfVip.keys) baseline).plan
        writeConfig (conf.withNums (vipAlloc (conf.vips.map ConfVip.keys) baseline).num)
          (aclListsBits conf.acl)
        pure (conf.withNums (vipAlloc (conf.vips.map ConfVip.keys) baseline).num))
      (n' + 2) { s with config := config } := by
  have halloc : Runs (allocateVipNums conf baseline) e n' s
      (vipAlloc (conf.vips.map ConfVip.keys) baseline) n' s := by
    unfold allocateVipNums
    rw [if_neg (Nat.not_lt.mpr hcount)]
    simp only [hok, Bool.true_eq_false, if_false]
    exact ⟨rfl, rfl, rfl⟩
  have hkept' : ∀ num, ∀ row ∈ baseline, keyInConf (conf.withNums num) row.key = true := by
    intro num row hrow
    obtain ⟨vip, hvip, hkey⟩ := List.any_eq_true.mp (hkept row hrow)
    obtain ⟨i, hi⟩ := List.mem_iff_getElem?.mp hvip
    exact List.any_eq_true.mpr
      ⟨vip.withNum (num i), MarlinConf.mem_withNums.mpr ⟨i, vip, hi, rfl⟩, hkey⟩
  have hstale : ∀ num, Runs (removeStaleVipKeys (conf.withNums num) baseline) e n' s () n' s := by
    intro num
    have hall := hkept' num
    unfold removeStaleVipKeys
    clear hkept hread hok halloc hkept'
    induction baseline with
    | nil => exact ⟨rfl, rfl, rfl⟩
    | cons row rows ih =>
        obtain ⟨hrow, hrows⟩ := List.forall_mem_cons.mp hall
        have hone : Runs (removeStaleVipKey (conf.withNums num) row) e n' s () n' s := by
          unfold removeStaleVipKey
          rw [if_pos hrow]
          exact ⟨rfl, rfl, rfl⟩
        exact hone.bind (ih hrows)
  have hframe : (conf.withNums
      (vipAlloc (conf.vips.map ConfVip.keys) baseline).num).inst.maxFrameSet = true :=
    hconf.maxFrameSet
  exact ⟨_, (openMaps_runs he n s).leads.trans (hread.leads.trans (halloc.leads.trans
    ((hstale _).leads.trans ((readOldAclLists_runs he n' s).leads.trans
      (writeConfig_runs (n' + 1) s hframe _ hwrite).leads))))⟩

end Parts

/-! ## Three files -/

namespace Sample

def bareLoaded : LoadedConf :=
  load (conf [] []) (by simp [MarlinConf.keys, conf]) (by decide) (by decide)

def pairConf (addr : Be32) : MarlinConf :=
  conf [backend addr []] [vip [key, otherKey] [⟨[98], 0, 1⟩]]

theorem pairConf_canonical (addr : Be32) : ∀ k ∈ (pairConf addr).keys, k.Canonical := by
  simp [MarlinConf.keys, pairConf, conf, vip]
  decide

def firstLoaded : LoadedConf :=
  load (pairConf ⟨10, 0, 0, 1⟩) (pairConf_canonical _) (by decide) (by decide)

def secondLoaded : LoadedConf :=
  load (pairConf ⟨10, 0, 0, 2⟩) (pairConf_canonical _) (by decide) (by decide)

theorem calmEnv_plain : calmEnv.Plain :=
  ⟨fun _ => rfl, fun _ _ => rfl, fun _ => rfl, fun _ => rfl⟩

theorem faultyEnv_plain (n : Nat) : (faultyEnv n).Plain :=
  ⟨fun _ => rfl, fun _ _ => rfl, fun _ => rfl, fun _ => rfl⟩

theorem faultyEnv_none {n k : Nat} (h : k < n) : (faultyEnv n).writeFault k = none := by
  simp [faultyEnv, Nat.not_le.mpr h]

def pairMeta : VipMeta := ⟨0, 0, Vector.replicate 16 0⟩

end Sample

theorem bareLoaded_runs {S : Type} [LinearOrder S] (score : UInt64 → Nat → S) :
    ∃ config num n, Runs (reconcileApply score .layout Sample.bareLoaded.conf)
      Sample.calmEnv 0 Maps.fresh (Sample.bareLoaded.conf.withNums num) n
      { Maps.fresh with config := config } := by
  have hplain := Sample.calmEnv_plain
  have hconf : Sample.bareLoaded.conf.Bare := ⟨rfl, rfl, rfl, rfl, rfl, rfl⟩
  obtain ⟨config, hleads⟩ := reconcileApply_leads hplain score hconf
    (readVipBaseline_empty_runs hplain 0 Maps.fresh rfl) (by simp) (by decide) (by decide) rfl
  have hplan : (vipAlloc (Sample.bareLoaded.conf.vips.map ConfVip.keys) []).plan = ⟨[], []⟩ := by
    decide
  rw [hplan] at hleads
  have hids : ∀ id ∈ List.range' 1 (maxBackends - 1),
      id < maxBackends ∧ (({ Maps.fresh with config := config } : Maps).backends id).id ≠ id := by
    intro id hid
    rw [List.mem_range'_1] at hid
    simp only [maxBackends, Maps.fresh, Backend.id_zero] at *
    omega
  have happly : Runs (applyMaps score .layout (Sample.bareLoaded.conf.withNums
      (vipAlloc (Sample.bareLoaded.conf.vips.map ConfVip.keys) []).num) ⟨[], []⟩)
      Sample.calmEnv 3 { Maps.fresh with config := config } ()
      (3 + 8 + 2 * (maxBackends - 1) + 1) { Maps.fresh with config := config } := by
    refine (applyAside_runs hplain ⟨rfl, rfl, rfl, rfl, rfl, rfl⟩
      ⟨rfl, rfl, rfl, rfl, rfl⟩).bind ?_
    have hretire := retireBackends_runs hplain (3 + 8) { Maps.fresh with config := config }
      (Sample.bareLoaded.conf.withNums
        (vipAlloc (Sample.bareLoaded.conf.vips.map ConfVip.keys) []).num) _ hids
    rw [List.length_range'] at hretire
    exact hretire.bind (removeStaleTxPorts_runs hplain _ _ rfl [])
  refine ⟨_, _, _, hleads.runs (happly.bind
    ((writeConfig_runs _ _ ?_ _ rfl).bind ⟨rfl, rfl, rfl⟩))⟩
  exact rfl

theorem pairConf_genBlock {S : Type} [LinearOrder S] (score : UInt64 → Nat → S)
    {conf : MarlinConf} (addr : Be32) (hbackends : conf.backends = [Sample.backend addr []])
    {vip : ConfVip} (hmembers : vip.members = [⟨[98], 5, 1⟩]) (row : Nat) :
    genBlock score conf vip row = 5 := by
  have hgen : genMembers conf vip = [⟨5, 1, addr, 0, 0⟩] := by
    simp only [genMembers, hmembers, List.map_cons, List.map_nil, genMember, hbackends]
    rfl
  have hne : genMembers conf vip ≠ [] := by simp [hgen]
  obtain ⟨member, hmember, hrow⟩ := fwdGenBlock_mem score vip.tableSeed hne row
  rw [hgen] at hmember
  rw [genBlock, hrow, List.mem_singleton.mp hmember]

/-- The reload that stops between the two addresses leaves the first one live. -/
theorem firstLoaded_halts {S : Type} [LinearOrder S] (score : UInt64 → Nat → S)
    (config : MarlinConfig) :
    ∃ mp, Halts (reconcileApply score .layout Sample.firstLoaded.conf) (Sample.faultyEnv 17) 0
        { Maps.fresh with config := config } mp ∧
      mp.Bare ∧ mp.vipMap = AList.singleton Sample.key Sample.pairMeta ∧
      (∀ row < tableSize, mp.fwdRow 0 row = 5) ∧
      mp.backends 5 = backendValue (Sample.backend ⟨10, 0, 0, 1⟩ []) 0 := by
  have hplain := Sample.faultyEnv_plain 17
  have hconf : Sample.firstLoaded.conf.Bare := ⟨rfl, rfl, rfl, rfl, rfl, rfl⟩
  have hbackends : Sample.firstLoaded.conf.backends = [Sample.backend ⟨10, 0, 0, 1⟩ []] := by
    decide
  obtain ⟨config, hleads⟩ := reconcileApply_leads hplain score hconf
    (readVipBaseline_empty_runs hplain 0 { Maps.fresh with config := config } rfl) (by simp)
    (by decide) (by decide) (Sample.faultyEnv_none (by decide))
  have hplan : (vipAlloc (Sample.firstLoaded.conf.vips.map ConfVip.keys) []).plan =
      ⟨[0], []⟩ := by
    decide
  have hnum : (vipAlloc (Sample.firstLoaded.conf.vips.map ConfVip.keys) []).num 0 = 0 := by
    decide
  rw [hplan] at hleads
  generalize hconf' : Sample.firstLoaded.conf.withNums
    (vipAlloc (Sample.firstLoaded.conf.vips.map ConfVip.keys) []).num = conf at hleads
  have hvip : conf.vips[0]? =
      some (Sample.vip [Sample.key, Sample.otherKey] [⟨[98], 5, 1⟩] |>.withNum 0) := by
    rw [← hconf', ← hnum]
    rfl
  have hback : Runs (writeBackends .layout conf) (Sample.faultyEnv 17) 11
      { Maps.fresh with config := config } () 12 { Maps.fresh with
        config := config
        backends := Function.update Maps.fresh.backends 5
          (backendValue (Sample.backend ⟨10, 0, 0, 1⟩ []) 0) } := by
    rw [writeBackends, ← hconf', MarlinConf.withNums_backends, hbackends]
    exact (writeBackend_runs 11 _ rfl (by decide) (by decide)
      (Sample.faultyEnv_none (by decide))).bind ⟨rfl, rfl, rfl⟩
  let filled : Maps := { Maps.fresh with
    config := config
    backends := Function.update Maps.fresh.backends 5
      (backendValue (Sample.backend ⟨10, 0, 0, 1⟩ []) 0) }
  obtain ⟨fwdTable, hblock, hrows⟩ := writeFwdBlock_runs 14 filled hplain
    (show 0 < maxVips by decide)
    (genBlock score conf
      (Sample.vip [Sample.key, Sample.otherKey] [⟨[98], 5, 1⟩] |>.withNum 0))
    (Sample.faultyEnv_none (by decide))
  have hpublish : Runs (vipMapRef.updateElem Sample.key Sample.pairMeta)
      (Sample.faultyEnv 17) 16 { filled with fwdTable := fwdTable } none 17 { filled with
        fwdTable := fwdTable
        vipMap := AList.singleton Sample.key Sample.pairMeta } :=
    vipMap_updateElem_runs 16 _ (show 0 < maxVips by decide)
      (Sample.faultyEnv_none (by decide))
  refine ⟨{ filled with
    fwdTable := fwdTable
    vipMap := AList.singleton Sample.key Sample.pairMeta }, hleads.halts (Halts.bind ?_),
    ⟨rfl, rfl, rfl, rfl, rfl⟩, rfl, ?_, by simp [filled]⟩
  · refine (applyAside_runs hplain ?_ ⟨rfl, rfl, rfl, rfl, rfl⟩).leads.halts ?_
    · rw [← hconf']
      exact ⟨rfl, rfl, rfl, rfl, rfl, rfl⟩
    refine hback.leads.halts (Halts.bind (Halts.bind ?_))
    simp only [hvip]
    refine (callocFails_runs hplain 12 _).leads.halts ?_
    refine (callocFails_runs hplain 13 _).leads.halts ?_
    simp only [Bool.false_eq_true, and_false, or_self, if_false]
    refine hblock.leads.halts ?_
    refine (hpublish.bind (show Runs _ _ _ _ () 17 _ from ⟨rfl, rfl, rfl⟩)).leads.halts ?_
    exact Halts.bind ((vipMap_updateElem_fault 17 _ rfl).leads.halts (failErrno_halts _ _ _ _))
  · intro row hrow
    change fwdTable (fwdIndex 0 row) = 5
    rw [hrows row hrow]
    refine pairConf_genBlock score ⟨10, 0, 0, 1⟩ ?_ rfl row
    rw [← hconf']
    exact hbackends

theorem writeBackend_mem_steps {e : Env} (n : Nat) (s : Maps) {b : ConfBackend}
    (hegress : b.hasEgress = false) (hkey : BackendKeys.layout.ofConf b = b.id)
    (hid : b.id < maxBackends) (hwrite : e.writeFault n = none) :
    (s, ({ s with backends := Function.update s.backends b.id (backendValue b 0) } : Maps)) ∈
      (writeBackend .layout b e n s).steps := by
  have hnone : Runs (egressIfindex b) e n s 0 n s := by
    simp only [egressIfindex, hegress, Bool.false_eq_true, if_false]
    exact ⟨rfl, rfl, rfl⟩
  refine hnone.leads.mem_steps (Stepwise.mem_steps_left ?_)
  simp only [updateBackend, Stepwise.put, hwrite, hkey, if_pos hid, chain]
  exact List.mem_singleton.mpr rfl

theorem secondLoaded_overwrites {S : Type} [LinearOrder S] (score : UInt64 → Nat → S)
    {mp : Maps} (hbare : mp.Bare)
    (hlive : mp.vipMap = AList.singleton Sample.key Sample.pairMeta) :
    ∃ config, (({ mp with config := config } : Maps), ({ mp with
        config := config
        backends := Function.update mp.backends 5
          (backendValue (Sample.backend ⟨10, 0, 0, 2⟩ []) 0) } : Maps)) ∈
      (reconcileApply score .layout Sample.secondLoaded.conf Sample.calmEnv 0 mp).steps := by
  have hplain := Sample.calmEnv_plain
  have hconf : Sample.secondLoaded.conf.Bare := ⟨rfl, rfl, rfl, rfl, rfl, rfl⟩
  have hbackends : Sample.secondLoaded.conf.backends = [Sample.backend ⟨10, 0, 0, 2⟩ []] := by
    decide
  obtain ⟨config, hleads⟩ := reconcileApply_leads hplain score hconf
    (readVipBaseline_single_runs hplain 0 mp hlive (by decide)) (by decide) (by decide)
    (by decide) rfl
  have hwrite := writeBackend_mem_steps (e := Sample.calmEnv) 13 { mp with config := config }
    (b := Sample.backend ⟨10, 0, 0, 2⟩ []) rfl (by decide) (by decide) rfl
  refine ⟨config, hleads.mem_steps (Stepwise.mem_steps_left ?_)⟩
  refine (applyAside_runs hplain ?_ ?_).leads.mem_steps (Stepwise.mem_steps_left ?_)
  · exact ⟨rfl, rfl, rfl, rfl, rfl, rfl⟩
  · exact ⟨hbare.txPorts, hbare.aclAllowV4, hbare.aclBlockV4, hbare.aclAllowV6,
      hbare.aclBlockV6⟩
  · rw [writeBackends, MarlinConf.withNums_backends, hbackends]
    exact Stepwise.mem_steps_left hwrite

/-! ## The run -/

/-- What every run of the daemon after a successful attach is expected to do. -/
def IdentityNeverChanges : Prop :=
  ∀ (S : Type) [LinearOrder S] (score : UInt64 → Nat → S) (e : Env) (confPath : CBuf)
    (loaded : LoadedConf) (prior : Maps) (d : Daemon) (reloads : List Reload),
    e.Honest → prior.KeysCanonical →
    reconcileStartup score .layout e confPath loaded prior = some d →
    (∀ r ∈ reloads, r.env.Honest) →
    ∀ step ∈ d.run score .layout reloads, IdentityKept step.1 step.2

/--
Attached with nothing configured; a first file stops between its two addresses; a
second file moves backend 5 while the first address still sends to it.
-/
theorem not_identityNeverChanges : ¬IdentityNeverChanges := by
  intro h
  obtain ⟨config, num, n, hattach⟩ := bareLoaded_runs Sample.score
  obtain ⟨mp, hhalts, hbare, hvipMap, hrows, hslot⟩ := firstLoaded_halts Sample.score config
  obtain ⟨config', hstep⟩ := secondLoaded_overwrites Sample.score hbare hvipMap
  let file := Sample.bareLoaded.conf.withNums num
  have hstartup : reconcileStartup Sample.score .layout Sample.calmEnv [] Sample.bareLoaded
      Maps.fresh = some ⟨⟨some [], file⟩, { Maps.fresh with config := config }⟩ := by
    simp only [reconcileStartup, hattach.result, hattach.store, Option.map_some]
    rfl
  have hfirst : (handleReload Sample.score .layout
      ⟨⟨some [], file⟩, { Maps.fresh with config := config }⟩
      ⟨Sample.faultyEnv 17, some Sample.firstLoaded⟩).daemon = ⟨⟨some [], file⟩, mp⟩ := by
    have hcheck : (confCheckAgainstPrevious Sample.firstLoaded.conf file
        (confCheck Sample.firstLoaded.nametoindex Sample.firstLoaded.parsed
          Sample.firstLoaded.diag).diag).1 = true := rfl
    simp [handleReload, applyReload, hcheck, hhalts.result, hhalts.store]
  have hsecond : (handleReload Sample.score .layout ⟨⟨some [], file⟩, mp⟩
      ⟨Sample.calmEnv, some Sample.secondLoaded⟩).steps =
      (reconcileApply Sample.score .layout Sample.secondLoaded.conf Sample.calmEnv 0
        mp).steps := by
    have hcheck : (confCheckAgainstPrevious Sample.secondLoaded.conf file
        (confCheck Sample.secondLoaded.nametoindex Sample.secondLoaded.parsed
          Sample.secondLoaded.diag).diag).1 = true := rfl
    simp only [handleReload, applyReload, hcheck]
    split
    · contradiction
    · split <;> rfl
  have hkept := h Nat Sample.score Sample.calmEnv [] Sample.bareLoaded Maps.fresh _
    [⟨Sample.faultyEnv 17, some Sample.firstLoaded⟩, ⟨Sample.calmEnv, some Sample.secondLoaded⟩]
    Sample.calmEnv_honest (fun _ _ hlookup => by simp [Maps.fresh] at hlookup) hstartup
    (by simp [Sample.faultyEnv_honest, Sample.calmEnv_honest])
    (({ mp with config := config' } : Maps), _)
    (by
      simp only [Daemon.run, hfirst, hsecond, List.mem_append]
      exact Or.inr (Or.inl hstep))
  have hlive : ({ mp with config := config' } : Maps).LiveRow 5 :=
    ⟨Sample.key, Sample.pairMeta, 0, by simp [hvipMap, AList.singleton, AList.lookup],
      by decide, hrows 0 (by decide)⟩
  have hsame := hkept 5 ⟨by simp [hslot, backendValue, Sample.backend], by decide⟩ hlive
  simp only [Function.update_self, hslot] at hsame
  exact absurd hsame (by decide)

end Marlin
