import Marlin.Emission
import Marlin.HitlessReload
import Marlin.Marlind.LoaderMaps
import Marlin.Marlind.ReconcileOwn

/-!
# Frames go where a file sends them

However many loaders run, whatever fails, and wherever they are interrupted: the maps hold
nothing but what configuration files stated that some loader has read.  So a frame that the
program sends on, at any moment, was for an address of such a file, and goes to a backend of
such a file.
-/

namespace Marlin

open Marlin.Library

/-! ## What loaders read -/

def AttachProc.Reads (p : AttachProc) (files : Files) (a : Answers) (conf : MarlinConf) : Prop :=
  (p.pc = .started ∨ p.pc = .reloading) ∧ ∃ path, p.confPath = some path ∧
    (confLoad a.confHost (files.confs path).file .full true confDiagReset).1 = some conf

def World.Reads (w : World) (act : Act) (conf : MarlinConf) : Prop :=
  ∃ pid a p, act = .run pid a ∧ w.attaches pid = some p ∧ p.Reads w.files a conf

theorem AttachProc.Reads.accepted {p : AttachProc} {files : Files} {a : Answers}
    {conf : MarlinConf} (h : p.Reads files a conf) : conf.Accepted := by
  obtain ⟨-, path, -, hload⟩ := h
  exact ⟨a.confHost, (files.confs path).file, true, hload⟩

section

variable {S : Type} [LinearOrder S] (score : UInt64 → Nat → S)

/-- Some call of the run takes `conf` from a file. -/
def World.HasRead (w : World) (acts : List Act) (conf : MarlinConf) : Prop :=
  ∃ before act after, acts = before ++ act :: after ∧ (w.run score before).Reads act conf

def AttachProc.Reconciles (p : AttachProc) (files : Files) (a : Answers) (conf : MarlinConf) :
    Prop :=
  (p.pc = .reconciling ∧ p.cfg.file = some conf) ∨
    (p.pc = .reloading ∧ ∃ path prev diag, p.confPath = some path ∧ p.cfg.file = some prev ∧
      confLoad a.confHost (files.confs path).file .full true confDiagReset = (some conf, diag) ∧
      (confCheckAgainstPrevious conf prev diag).1 = true)

/-- A kernel that the run passes: between two acts, or within a reconcile. -/
inductive World.Passes (w : World) (acts : List Act) : Kernel → Prop
  | between (before after : List Act) (hacts : acts = before ++ after) :
      Passes w acts (w.run score before).kernel
  | within (before after : List Act) (pid : Nat) (a : Answers) (p : AttachProc)
      (conf : MarlinConf) (mp : Maps) (hacts : acts = before ++ .run pid a :: after)
      (hp : (w.run score before).attaches pid = some p)
      (hconf : p.Reconciles (w.run score before).files a conf)
      (hmoment : Moment ((w.run score before).kernel.view p.handles)
        (reconciles score (w.run score before).kernel p a conf).steps mp) :
      Passes w acts ((w.run score before).kernel.store p.handles mp)

end

/-! ## Kernels whose maps come from files -/

section

variable {known : MarlinConf → Prop} {k : Kernel} {S : Type} [LinearOrder S]
  {score : UInt64 → Nat → S} {files : Files} {pid : Nat} {p : AttachProc} {a : Answers}
  {r : Kernel × AttachProc}

def Kernel.FromFiles (known : MarlinConf → Prop) (k : Kernel) : Prop :=
  ∀ load, (k.heap load).FromFiles known

theorem Kernel.FromFiles.view (hk : k.FromFiles known) (handles : ObjMap → Nat) :
    (k.view handles).FromFiles known :=
  ⟨(hk _).config, (hk _).backends, (hk _).vipMap⟩

theorem Kernel.FromFiles.store (hk : k.FromFiles known) (handles : ObjMap → Nat) {mp : Maps}
    (hmp : mp.FromFiles known) : (k.store handles mp).FromFiles known := by
  intro load
  refine ⟨?_, fun id => ?_, fun key vipMeta => ?_⟩
  · simp only [Kernel.store]
    split
    · exact hmp.config
    · exact (hk load).config
  · simp only [Kernel.store]
    split
    · exact hmp.backends id
    · exact (hk load).backends id
  · simp only [Kernel.store]
    split
    · exact hmp.vipMap key vipMeta
    · exact (hk load).vipMap key vipMeta

def AttachProc.Sourced (known : MarlinConf → Prop) (p : AttachProc) : Prop :=
  p.pc.active = true → p.pc.reconciled = false → ∀ conf, p.cfg.file = some conf → known conf

theorem AttachProc.Sourced.idle (hp : p.pc.active = false) : p.Sourced known :=
  fun h => absurd h (by simp [hp])

theorem AttachProc.Sourced.late (hp : p.pc.reconciled = true) : p.Sourced known :=
  fun _ h => absurd h (by simp [hp])

theorem AttachProc.Sourced.early {q : AttachProc} (hp : p.Sourced known)
    (hactive : p.pc.active = true) (hearly : p.pc.reconciled = false)
    (hfile : q.cfg.file = p.cfg.file) : q.Sourced known :=
  fun _ _ conf hconf => hp hactive hearly conf (hfile ▸ hconf)

theorem AttachProc.Sourced.reconciles {conf : MarlinConf} (hp : p.Sourced known)
    (hreads : ∀ conf, p.Reads files a conf → known conf) (h : p.Reconciles files a conf) :
    known conf := by
  rcases h with ⟨hpc, hfile⟩ | ⟨hpc, path, prev, diag, hpath, -, hload, -⟩
  · exact hp (by rw [hpc]; rfl) (by rw [hpc]; rfl) conf hfile
  · exact hreads conf ⟨Or.inr hpc, path, hpath, congrArg Prod.fst hload⟩

theorem AttachStep.writes (hcall : AttachStep score k files pid p a r) :
    (∀ load, r.1.heap load = k.heap load ∨ r.1.heap load = Maps.fresh) ∨
      ∃ conf, p.Reconciles files a conf ∧
        r.1 = k.store p.handles (reconciles score k p a conf).store := by
  cases hcall with
  | opens object =>
      refine Or.inl fun load => ?_
      by_cases hload : load = k.loads
      · exact Or.inr (hload ▸ Function.update_self ..)
      · exact Or.inl (Function.update_of_ne hload ..)
  | reconciled conf file hpc hfile => exact Or.inr ⟨conf, Or.inl ⟨hpc, hfile⟩, rfl⟩
  | refuses conf hpc hfile => exact Or.inr ⟨conf, Or.inl ⟨hpc, hfile⟩, rfl⟩
  | reloads path prev next file diag hpc hpath hfile hload hcheck =>
      exact Or.inr ⟨next, Or.inr ⟨hpc, path, prev, diag, hpath, hfile, hload, hcheck⟩, rfl⟩
  | breaks path prev next diag hpc hpath hfile hload hcheck =>
      exact Or.inr ⟨next, Or.inr ⟨hpc, path, prev, diag, hpath, hfile, hload, hcheck⟩, rfl⟩
  | _ => exact Or.inl fun _ => Or.inl rfl

theorem AttachStep.fromFiles (hcall : AttachStep score k files pid p a r)
    (haccepted : ∀ conf, known conf → conf.Accepted)
    (hreads : ∀ conf, p.Reads files a conf → known conf) (hp : p.Sourced known)
    (hk : k.FromFiles known) : r.1.FromFiles known := by
  rcases hcall.writes with hkept | ⟨conf, hconf, hr⟩
  · intro load
    rcases hkept load with h | h
    · rw [h]
      exact hk load
    · rw [h]
      exact Maps.fresh_fromFiles known
  · have hknown := hp.reconciles hreads hconf
    rw [hr]
    exact hk.store _ ((haccepted conf hknown).fromFiles hknown score a.env 0 (hk.view _)).1

theorem AttachStep.sourced (hcall : AttachStep score k files pid p a r)
    (hreads : ∀ conf, p.Reads files a conf → known conf) (hp : p.Sourced known) :
    r.2.Sourced known := by
  cases hcall with
  | stays => exact hp
  | exits | refuses => exact .idle rfl
  | configures cfg hpc hcfg =>
      intro _ _ conf hconf
      by_cases hpath : p.confPath = none
      · rw [hpath] at hcfg
        rw [loadConfig_fileless hcfg] at hconf
        cases hconf
      · obtain ⟨path, file, hpath', hfile, hload⟩ := loadConfig_file hcfg hpath
        obtain rfl : file = conf := Option.some.inj (hfile.symm.trans hconf)
        exact hreads file ⟨Or.inl hpc, path, hpath', hload⟩
  | prepares pc hpc =>
      exact hp.early (preparation_active hpc).1 (preparation_reconciled hpc).1 rfl
  | opens _ hpc => exact hp.early (by rw [hpc]; rfl) (by rw [hpc]; rfl) rfl
  | reuses _ _ _ hpc | creates _ _ hpc =>
      exact hp.early (by rw [hpc]; rfl) (by rw [hpc]; rfl) rfl
  | mapped hpc | unversioned hpc | unpinsVersion hpc | pinsVersion hpc =>
      exact hp.early (by rw [hpc]; rfl) (by rw [hpc]; rfl) rfl
  | overruns hpc | hears hpc => exact .late (by rw [hpc]; rfl)
  | _ => exact .late rfl

/-! ## Runs -/

/-- The maps hold what known files state, and so will the reconciles that are due. -/
structure World.FromFiles (known : MarlinConf → Prop) (w : World) : Prop where
  kernel : w.kernel.FromFiles known
  sourced : ∀ pid p, w.attaches pid = some p → p.Sourced known

theorem Kernel.FromFiles.of_heap {k' : Kernel} (hk : k.FromFiles known)
    (hheap : k'.heap = k.heap) : k'.FromFiles known := by
  rw [Kernel.FromFiles, hheap]
  exact hk

theorem AttachProc.Sourced.sameWork {q : AttachProc} (hp : p.Sourced known)
    (hsame : p.SameWork q) : q.Sourced known := by
  rw [AttachProc.Sourced, hsame.pc, hsame.cfg]
  exact hp

theorem World.Step.fromFiles {w w' : World} {act : Act} (hstep : w.Step score act w')
    (haccepted : ∀ conf, known conf → conf.Accepted)
    (hreads : ∀ conf, w.Reads act conf → known conf) (hw : w.FromFiles known) :
    w'.FromFiles known := by
  have hcall : ∀ {pid : Nat} {a : Answers} {p : AttachProc}, act = .run pid a →
      w.attaches pid = some p → ∀ conf, p.Reads w.files a conf → known conf :=
    fun hact hp conf h => hreads conf ⟨_, _, _, hact, hp, h⟩
  constructor
  · cases hstep with
    | signals pid sig p hp => exact hw.kernel.of_heap (World.setAttach_heap ..)
    | runsAttach pid a p r hp hrun =>
        refine Kernel.FromFiles.of_heap ?_ (World.setAttach_heap ..)
        exact hrun.fromFiles haccepted (hcall rfl hp) (hw.sourced pid p hp) hw.kernel
    | runsUnpin pid a u r hnone hu hrun => exact hw.kernel.of_heap hrun.heap
    | _ => exact hw.kernel
  · intro pid p hp
    rcases hstep.proc hp with ⟨old, hold, hsame, -⟩ | hidle | ⟨a, old, r, rfl, hold, hrun, -, rfl⟩
    · exact (hw.sourced pid old hold).sameWork hsame
    · exact .idle hidle
    · exact hrun.sourced (hcall rfl hold) (hw.sourced pid old hold)

variable {w : World} {acts : List Act}

theorem World.HasRead.accepted {conf : MarlinConf} (h : w.HasRead score acts conf) :
    conf.Accepted := by
  obtain ⟨before, act, after, -, pid, a, p, -, -, hreads⟩ := h
  exact hreads.accepted

theorem World.Boot.fromFiles (hboot : w.Boot) (hfresh : ∀ load, w.kernel.heap load = Maps.fresh)
    {before after : List Act} (hacts : acts = before ++ after) :
    (w.run score before).FromFiles (w.HasRead score acts) := by
  have hreads : Along (World.step score)
      (fun v act => ∀ conf, v.Reads act conf → w.HasRead score acts conf) w before := by
    refine Along.of_split fun done act rest hbefore conf h => ?_
    exact ⟨done, act, rest ++ after, by rw [hacts, hbefore, List.append_assoc]; rfl, h⟩
  have hstart : w.FromFiles (w.HasRead score acts) := by
    constructor
    · intro load
      rw [hfresh load]
      exact Maps.fresh_fromFiles _
    · intro pid p hp
      rw [hboot.attaches pid] at hp
      cases hp
  refine hreads.invariant hstart fun v act hv hknown => ?_
  exact (v.step_step score act).fromFiles (fun _ => World.HasRead.accepted) hknown hv

theorem World.Passes.fromFiles (hboot : w.Boot)
    (hfresh : ∀ load, w.kernel.heap load = Maps.fresh) (h : w.Passes score acts k) :
    k.FromFiles (w.HasRead score acts) := by
  cases h with
  | between before after hacts => exact (hboot.fromFiles hfresh hacts).kernel
  | within before after pid a p conf mp hacts hp hconf hmoment =>
      have hw : (w.run score before).FromFiles (w.HasRead score acts) :=
        hboot.fromFiles hfresh hacts
      have hknown : w.HasRead score acts conf := by
        refine (hw.sourced pid p hp).reconciles (fun conf hreads => ?_) hconf
        exact ⟨before, .run pid a, after, hacts, pid, a, p, rfl, hp, hreads⟩
      have hview := hw.kernel.view p.handles
      have hreconcile := hknown.accepted.fromFiles hknown score a.env 0 hview
      refine hw.kernel.store _ ?_
      rcases hmoment with rfl | ⟨step, hstep, rfl⟩
      · exact hview
      · exact hreconcile.2 step hstep

/-! ## Frames that are sent on -/

/-- The entry, the backend and the settings of a frame that is sent on are those of known
files. -/
structure Frame.Listed (known : MarlinConf → Prop) (frame : Frame) (cfg : MarlinConfig)
    (vip : VipMeta) (be : Backend) : Prop where
  entry : ∃ conf, known conf ∧ ∃ v ∈ conf.vips, (∃ num, vip = { v.vipMeta with vipNum := num }) ∧
    (marlinLbVipKey (frame.parsed cfg) ∈ v.keys ∨
      { marlinLbVipKey (frame.parsed cfg) with port := 0 } ∈ v.keys)
  backend : ∃ conf, known conf ∧ ∃ b ∈ conf.backends, ∃ ifindex, be = backendValue b ifindex
  config : cfg = 0 ∨ ∃ conf, known conf ∧ ∃ lists maxFrame, cfg = configValue conf lists maxFrame

section

variable {seen : Moments} {host : Host} {frame : Frame} {vip : VipMeta} {be : Backend}
  (hseen : ∀ r, (seen r).FromFiles known)

include hseen

theorem fieldsFit_of_fromFiles
    (haccepted : ∀ conf, known conf → conf.Accepted)
    (hlength : (seen .config).config.maxFrame ≠ 0 ∨
      frame.length + marlinOverheadVxlan < 65536 + ethHlen) : FieldsFit seen frame := by
  refine ⟨?_, fun r id => ?_, hlength⟩
  · rcases (hseen .config).config with hzero | ⟨conf, -, lists, maxFrame, hle, hvalue⟩
    · rw [hzero]
      decide
    · rw [hvalue]
      exact Nat.lt_succ_of_le hle
  · rcases (hseen r).backends id with hzero | ⟨conf, hknown, b, hb, -, ifindex, hvalue⟩
    · rw [hzero]
      decide
    · rw [hvalue]
      exact (haccepted conf hknown).vni_lt b hb

theorem Dispatched.listed (h : Dispatched host seen frame vip be) :
    frame.Listed known (seen .config).config vip be := by
  refine ⟨?_, ?_, ?_⟩
  · have hvip := h.selected
    simp only [marlinLbSelectVipAt] at hvip
    cases hexact : (seen .vip).vipMap.lookup
        (marlinLbVipKey (frame.parsed (seen .config).config)) with
    | some hit =>
        rw [hexact] at hvip
        obtain rfl : hit = vip := Option.some.inj hvip
        obtain ⟨conf, hknown, v, hv, hkey, hnum⟩ := (hseen .vip).vipMap _ _ hexact
        exact ⟨conf, hknown, v, hv, hnum, Or.inl hkey⟩
    | none =>
        rw [hexact] at hvip
        obtain ⟨conf, hknown, v, hv, hkey, hnum⟩ := (hseen .anyPort).vipMap _ _ hvip
        exact ⟨conf, hknown, v, hv, hnum, Or.inr hkey⟩
  · obtain ⟨id, -, -, hslot⟩ := h.found
    have hfilled : ∀ r, (seen r).backends id = be →
        ∃ conf, known conf ∧ ∃ b ∈ conf.backends, ∃ ifindex, be = backendValue b ifindex := by
      intro r hbe
      rcases (hseen r).backends id with hzero | ⟨conf, hknown, b, hb, -, ifindex, hvalue⟩
      · -- an empty slot is down
        have hup := h.up
        rw [← hbe, hzero] at hup
        exact absurd rfl hup
      · exact ⟨conf, hknown, b, hb, ifindex, hbe.symm.trans hvalue⟩
    cases hslot with
    | row hrow => exact hfilled .slot rfl
    | cid hquic hcid => exact hfilled .quicSlot rfl
  · rcases (hseen .config).config with hzero | ⟨conf, hknown, lists, maxFrame, -, hvalue⟩
    · exact Or.inl hzero
    · exact Or.inr ⟨conf, hknown, lists, maxFrame, hvalue⟩

end

end

/-! ## A frame after a startup -/

namespace SampleContainment

open Sample Library.Table

def goAhead : Answers := { Sample.goAhead with env := ifacesEnv }

def lastRun (n : Nat) : List Act :=
  .edit confPath lastFile :: .attach 0 ethEnviron (some confPath) ::
    List.replicate n (.run 0 goAhead)

def vipMeta : VipMeta :=
  ⟨0, 0, ⟨#[0, 1, 2, 3, 4, 5, 6, 7, 8, 9, 10, 11, 12, 13, 14, 15], rfl⟩⟩

def backend : Backend := { (0 : Backend) with id := 6, addr := ⟨10, 0, 0, 2⟩, flags := 0x51 }

def maps : Maps :=
  { Maps.fresh with
    config := { (0 : MarlinConfig) with tunnelSrc := ⟨10, 0, 0, 9⟩, maxFrame := 1514 }
    backends := fun id => if id = 6 then backend else 0
    fwdTable := fun _ => 6
    vipMap := (∅ : Table VipKey VipMeta).update 0 key vipMeta }

abbrev Holding (mp : Maps) : Prop := Completed score ifaces lastConf Maps.fresh mp

section

variable {mp : Maps} (h : Holding mp)

include h

theorem config_eq : mp.config = maps.config := by
  have hvalue : configValue lastConf (aclListsBits lastConf.acl) (ifaces.maxFrame lastConf) =
      { (0 : MarlinConfig) with tunnelSrc := ⟨10, 0, 0, 9⟩, maxFrame := 1514 } := by
    decide +kernel
  rw [h.carries.config, hvalue]
  rfl

theorem lookup_eq (k : VipKey) : mp.vipMap.lookup k = maps.vipMap.lookup k := by
  have hnum : lastConf.vips.length = 1 ∧
      (vipAlloc (lastConf.vips.map ConfVip.keys) Maps.fresh.baseline).num 0 = 0 := by
    decide +kernel
  have hpairs : lastConf.vipPairs (fun _ => 0) = [(key, vipMeta)] := by
    decide +kernel
  have hholds := h.carries.vipMap k
  have hsame : lastConf.withNums
      (vipAlloc (lastConf.vips.map ConfVip.keys) Maps.fresh.baseline).num =
        lastConf.withNums fun _ => 0 := by
    refine MarlinConf.withNums_congr fun i hi => ?_
    rw [hnum.1, Nat.lt_one_iff] at hi
    rw [hi, hnum.2]
  rw [MarlinConf.vipPairs, hsame, ← MarlinConf.vipPairs, hpairs] at hholds
  rw [hholds]
  change lastValue ([] ++ [(key, vipMeta)]) k =
    ((∅ : Table VipKey VipMeta).update 0 key vipMeta).lookup k
  rw [lastValue_snoc, lastValue_nil, lookup_update]
  rfl

theorem backend_eq : mp.backends 6 = backend := by
  have hstates : ∀ b ∈ lastConf.backends, b.id = 6 ∧ b.hasEgress = false ∧
      backendValue b 0 = backend := by
    decide +kernel
  have hsome : lastConf.backends.length = 1 := by
    decide +kernel
  obtain ⟨b, hb⟩ := List.exists_mem_of_length_pos (Nat.lt_of_lt_of_eq Nat.one_pos hsome.symm)
  obtain ⟨hid, hegress, hvalue⟩ := hstates b hb
  have hslot := h.backends b hb
  rw [hid] at hslot
  rw [hslot, ← hvalue]
  simp only [backendValue, hegress, Bool.false_eq_true, if_false]

theorem selectVip_eq (pkt : MarlinCtx) : marlinLbSelectVip mp pkt = marlinLbSelectVip maps pkt := by
  simp only [marlinLbSelectVip, lookup_eq h]

theorem row_eq {pkt : MarlinCtx} {vip : VipMeta} (hvip : marlinLbSelectVip maps pkt = some vip) :
    mp.fwdTable (marlinLbFkey pkt vip) = 6 := by
  have hstates : lastConf.backends.map ConfBackend.id = [6] ∧
      ∀ vip ∈ lastConf.vips, vip.members.length = 1 := by
    decide +kernel
  rw [← selectVip_eq h] at hvip
  obtain ⟨i, v, hi, -, rfl⟩ := h.carries.selectVip lastConf_accepted hvip
  rw [h.carries.fkey hi lastConf_accepted pkt]
  have hv := List.mem_of_getElem? hi
  have hmembers : v.members ≠ [] := by
    intro hnil
    have hone := hstates.2 v hv
    rw [hnil] at hone
    cases hone
  obtain ⟨m, -, b, hb, -, hwins⟩ :=
    lastConf_accepted.checked.winner_mem score hv pkt.tuple hmembers
  have hid : b.id ∈ lastConf.backends.map ConfBackend.id := List.mem_map_of_mem hb
  rw [hstates.1, List.mem_singleton] at hid
  rw [hwins, hid]

theorem segment_reads : SameReads host segment maps fun _ => mp := by
  have hentry : marlinLbSelectVip maps (segment.parsed maps.config) = some vipMeta := by
    decide +kernel
  refine
    { config := ⟨0, ?_⟩
      verdict := ?_
      vip := fun key _ => lookup_eq h key
      anyPort := fun key _ _ => lookup_eq h _
      quicSlot := ?_
      row := fun vip hvip _ key hkey => ?_
      slot := ?_
      txPort := ?_ }
  · dsimp only
    rw [config_eq h]
    rfl
  · have hoff : ∀ pkt : MarlinCtx, mp.aclVerdict pkt = .none ∧ maps.aclVerdict pkt = .none := by
      intro pkt
      constructor
      · rw [Maps.aclVerdict_eq, config_eq h]
        rfl
      · rw [Maps.aclVerdict_eq]
        rfl
    have hraced : marlinAclCheckAt (fun _ => mp) (segment.parsed mp.config) =
        mp.aclVerdict (segment.parsed 0) := by
      rw [segment.parsed_withCfg 0 mp.config]
      rfl
    have hstill : marlinAclCheck maps (segment.parsed maps.config) =
        maps.aclVerdict (segment.parsed 0) := by
      rw [segment.parsed_withCfg 0 maps.config]
      rfl
    rw [hraced, hstill, (hoff _).1, (hoff _).2]
  · intro r _ vip hvip hquic
    rw [hentry] at hvip
    obtain rfl := Option.some.inj hvip
    exact absurd rfl hquic
  · rw [hkey, row_eq h hvip]
    rfl
  · rintro vip - - id rfl - -
    exact backend_eq h
  · intro vip be _ _ query _
    rw [h.carries.mem_txPorts, Interfaces.txPorts, lastConf_bare.txPorts]
    exact iff_of_false List.not_mem_nil (AList.notMem_empty _)

end

theorem lastRun_holding : Holding ((bootWorld.run score (lastRun 24)).kernel.view fun _ => 0) := by
  have hstate : ((bootWorld.run score (lastRun 23)).attaches 0).map (fun p => p.pc) =
        some .reconciling ∧
      ((bootWorld.run score (lastRun 23)).attaches 0).map (fun p => p.cfg.file) =
        some (some lastConf) ∧
      ((bootWorld.run score (lastRun 23)).attaches 0).map (fun p => objMaps.map p.handles) =
        some (List.replicate 14 0) := by
    decide +kernel
  have hheap : (bootWorld.run score (lastRun 23)).kernel.heap 0 = Maps.fresh := rfl
  have hacts : lastRun 24 = lastRun 23 ++ [.run 0 goAhead] := rfl
  rw [hacts, World.run_append]
  generalize bootWorld.run score (lastRun 23) = w at hstate hheap
  obtain ⟨hpc, hfile, hhandles⟩ := hstate
  obtain ⟨p, hp, hpc⟩ := Option.map_eq_some_iff.mp hpc
  rw [hp, Option.map_some, Option.some.injEq] at hfile hhandles
  have hzero : p.handles = fun _ => 0 := funext (handles_of_replicate hhandles)
  have hview : w.kernel.view p.handles = Maps.fresh := by
    simp only [Kernel.view, hzero, hheap]
  have hresult := lastConf_bare.returns lastConf_accepted Maps.fresh_bounded
  have henv : goAhead.env = ifacesEnv := rfl
  have hcall : attachCall score w.kernel w.files 0 p goAhead =
      (w.kernel.store p.handles
          (reconcileApply score .layout lastConf ifacesEnv 0 Maps.fresh).store,
        { p with
          pc := .progUnlink
          cfg := { p.cfg with file := some (lastConf.assigned Maps.fresh) }
          clean := true }) := by
    simp only [attachCall, hpc, reconcileAtStartup, hfile, hview, henv, hresult]
  obtain ⟨w', hstep, -, hkernel, -⟩ := World.step_call hp hcall rfl
  rw [World.run_cons, hstep]
  change Holding (w'.kernel.view fun _ => 0)
  rw [hkernel, ← hzero, Kernel.view_store]
  exact lastConf_bare.completed lastConf_accepted Maps.fresh_bounded

end SampleContainment

end Marlin
