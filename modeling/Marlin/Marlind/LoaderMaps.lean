import Marlin.Realisation
import Marlin.Marlind.LoaderPins
import Marlin.Marlind.LoaderSignals

/-!
# What the maps of a loader hold

Only a loader of their directory writes its maps.  While a directory has one loader, its maps
hold its file from before the link is made; and where nobody has a file, they outlive every
loader as they are.
-/

namespace Marlin

open Marlin.Library

namespace Kernel

theorem view_of_heap {k k' : Kernel} {handles : ObjMap → Nat}
    (hheap : ∀ m, k'.heap (handles m) = k.heap (handles m)) :
    k'.view handles = k.view handles := by
  simp only [view, hheap]

theorem store_heap_of_ne {k : Kernel} {handles : ObjMap → Nat} {mp : Maps} {load : Nat}
    (hother : ∀ m, handles m ≠ load) : (k.store handles mp).heap load = k.heap load := by
  simp only [store, hother, if_false]

end Kernel

namespace AttachPc

def reconciled : AttachPc → Bool
  | .progUnlink | .progPin | .attaching | .serving | .reloading => true
  | _ => false

theorem opened_of_reconciled {pc : AttachPc} (h : pc.reconciled = true) :
    pc.opened = true ∧ pc.awaits = [] := by
  cases pc <;> simp_all [reconciled, opened, awaits]

end AttachPc

section

variable {S : Type} [LinearOrder S] {score : UInt64 → Nat → S} {k : Kernel} {files : Files}
  {pid : Nat} {p : AttachProc} {a : Answers} {r : Kernel × AttachProc}

theorem AttachStep.heap (hcall : AttachStep score k files pid p a r) :
    (∀ load < k.loads, r.1.heap load = k.heap load) ∨
      (p.pc = .reconciling ∨ p.pc = .reloading) ∧ p.cfg.file ≠ none ∧
        ∃ mp, r.1.heap = (k.store p.handles mp).heap := by
  cases hcall with
  | opens object =>
      refine Or.inl fun load hload => ?_
      exact Function.update_of_ne (Nat.ne_of_lt hload) ..
  | reconciled conf file hpc hfile => exact Or.inr ⟨Or.inl hpc, by simp [hfile], _, rfl⟩
  | refuses conf hpc hfile => exact Or.inr ⟨Or.inl hpc, by simp [hfile], _, rfl⟩
  | reloads path prev next file diag hpc hpath hfile =>
      exact Or.inr ⟨Or.inr hpc, by simp [hfile], _, rfl⟩
  | breaks path prev next diag hpc hpath hfile =>
      exact Or.inr ⟨Or.inr hpc, by simp [hfile], _, rfl⟩
  | _ => exact Or.inl fun _ _ => rfl

theorem UnpinStep.heap {u : UnpinProc} {r : Kernel × UnpinProc}
    (hcall : UnpinStep k files u a r) : r.1.heap = k.heap := by
  cases hcall <;> rfl

theorem World.setAttach_heap (w : World) (pid : Nat) (k : Kernel) (p : AttachProc) :
    (w.setAttach pid k p).kernel.heap = k.heap := by
  simp only [World.setAttach]
  split
  · rfl
  · rfl

theorem World.Step.heap {w w' : World} {act : Act} (hstep : w.Step score act w') (hpins : Pins w)
    {load : Nat} {dir : CBuf} (hload : w.kernel.Has load dir) :
    w'.kernel.heap load = w.kernel.heap load ∨
      ∃ pid p, act.caller = some pid ∧ w.attaches pid = some p ∧ p.pc.opened = true ∧
        p.cfg.pinDir = dir ∧ p.cfg.file ≠ none := by
  cases hstep with
  | signals pid sig p hp =>
      rw [World.setAttach_heap]
      exact Or.inl rfl
  | runsAttach pid a p r hp hcall =>
      rw [World.setAttach_heap]
      rcases hcall.heap with hkept | ⟨hpc, hfile, mp, hheap⟩
      · exact Or.inl (hkept load hload.1)
      · have hopened : p.pc.opened = true ∧ p.pc.awaits = [] := by
          rcases hpc with hpc | hpc <;> rw [hpc] <;> exact ⟨rfl, rfl⟩
        by_cases hdir : p.cfg.pinDir = dir
        · exact Or.inr ⟨pid, p, rfl, hp, hopened.1, hdir, hfile⟩
        · refine Or.inl ?_
          rw [hheap]
          refine Kernel.store_heap_of_ne fun m hm => hdir ?_
          have hhandle := (hpins.refers pid p hp).handles hopened.1 m (by simp [hopened.2])
          rw [← hhandle.2, hm]
          exact hload.2
  | runsUnpin pid a u r hnone hu hcall =>
      rw [hcall.heap]
      exact Or.inl rfl
  | _ => exact Or.inl rfl

/-! ## The file of a loader -/

/-- The file of the process was accepted; once it has been reconciled, the maps hold it,
unless a later reload broke off. -/
structure AttachProc.Held (score : UInt64 → Nat → S) (k : Kernel) (p : AttachProc) : Prop where
  accepted : p.pc.active = true → p.pc.reconciled = false → ∀ conf, p.cfg.file = some conf →
    conf.Accepted
  clean : p.pc.reconciled = true → p.pc.holds = false → p.cfg.file ≠ none → p.clean = true
  realised : p.pc.reconciled = true → p.clean = true → ∀ file, p.cfg.file = some file →
    Realised score file (k.view p.handles)

theorem AttachProc.Held.idle (hp : p.pc.active = false) : p.Held score k := by
  have hreconciled : p.pc.reconciled = false := by
    cases hpc : p.pc <;> simp_all [AttachPc.active, AttachPc.reconciled]
  exact ⟨fun h => absurd h (by simp [hp]), fun h => absurd h (by simp [hreconciled]),
    fun h => absurd h (by simp [hreconciled])⟩

theorem AttachProc.Held.early {k' : Kernel} {q : AttachProc} (hp : p.Held score k)
    (hactive : p.pc.active = true) (hearly : p.pc.reconciled = false)
    (hq : q.pc.reconciled = false) (hfile : q.cfg.file = p.cfg.file) : q.Held score k' := by
  refine ⟨fun _ _ conf hconf => hp.accepted hactive hearly conf (hfile ▸ hconf), ?_, ?_⟩
  · exact fun h => absurd h (by simp [hq])
  · exact fun h => absurd h (by simp [hq])

theorem AttachProc.Held.late {k' : Kernel} {q : AttachProc} (hp : p.Held score k)
    (hlate : p.pc.reconciled = true) (hq : q.pc.reconciled = true)
    (hholds : q.pc.holds = false → p.pc.holds = false) (hfile : q.cfg.file = p.cfg.file)
    (hclean : q.clean = p.clean) (hview : k'.view q.handles = k.view p.handles) :
    q.Held score k' := by
  refine ⟨fun _ h => absurd hq (by simp [h]), fun _ h hsome => ?_, fun _ h file hsome => ?_⟩
  · rw [hclean]
    exact hp.clean hlate (hholds h) (hfile ▸ hsome)
  · rw [hview]
    exact hp.realised hlate (hclean ▸ h) file (hfile ▸ hsome)

theorem AttachProc.Held.reconciled {q : AttachProc} {conf file : MarlinConf} {e : Env}
    (hhonest : e.Honest) (hconf : conf.Accepted)
    (hresult : (reconcileApply score .layout conf e 0 (k.view p.handles)).result = some file)
    (hq : q.pc.reconciled = true) (hclean : q.clean = true) (hfile : q.cfg.file = some file)
    (hhandles : q.handles = p.handles) :
    q.Held score (k.store p.handles
      (reconcileApply score .layout conf e 0 (k.view p.handles)).store) := by
  refine ⟨fun _ h => absurd hq (by simp [h]), fun _ _ _ => hclean, fun _ _ out hout => ?_⟩
  obtain rfl : file = out := Option.some.inj (hfile.symm.trans hout)
  rw [hhandles, Kernel.view_store]
  exact (hconf.realised score BackendKeys.layout_sound hhonest hresult).2

theorem loadConfig_fileless {environ : Environ} {mode : ConfLoadMode} {cfg : AttachConfig}
    (hcfg : loadConfig k files environ none mode a = .ok cfg) : cfg.file = none := by
  simp only [loadConfig, loadConfigEnv] at hcfg
  split at hcfg
  · cases hcfg
  split at hcfg
  · cases hcfg
  split at hcfg
  · cases hcfg
  · cases hcfg
    rfl

theorem loadConfig_accepted {environ : Environ} {confPath : Option CBuf} {cfg : AttachConfig}
    (hcfg : loadConfig k files environ confPath .full a = .ok cfg) {conf : MarlinConf}
    (hconf : cfg.file = some conf) : conf.Accepted := by
  by_cases hpath : confPath = none
  · subst hpath
    rw [loadConfig_fileless hcfg] at hconf
    cases hconf
  · obtain ⟨path, file, -, hfile, hload⟩ := loadConfig_file hcfg hpath
    obtain rfl : file = conf := Option.some.inj (hfile.symm.trans hconf)
    exact ⟨a.confHost, (files.confs path).file, true, hload⟩

theorem preparation_reconciled {pc next : AttachPc} (hpc : (pc, next) ∈ preparation) :
    pc.reconciled = false ∧ next.reconciled = false := by
  simp only [preparation, List.mem_cons, Prod.mk.injEq, List.not_mem_nil, or_false] at hpc
  rcases hpc with ⟨rfl, rfl⟩ | ⟨rfl, rfl⟩ | ⟨rfl, rfl⟩ | ⟨rfl, rfl⟩ <;> exact ⟨rfl, rfl⟩

theorem AttachStep.held (hcall : AttachStep score k files pid p a r) (hhonest : a.env.Honest)
    (hp : p.Held score k) : r.2.Held score r.1 := by
  cases hcall with
  | stays => exact hp
  | exits | refuses => exact .idle rfl
  | configures cfg hpc hcfg =>
      exact ⟨fun _ _ conf hconf => loadConfig_accepted hcfg hconf, nofun, nofun⟩
  | prepares pc hpc =>
      exact hp.early (preparation_active hpc).1 (preparation_reconciled hpc).1
        (preparation_reconciled hpc).2 rfl
  | opens _ hpc => exact hp.early (by rw [hpc]; rfl) (by rw [hpc]; rfl) rfl rfl
  | reuses _ _ _ hpc => exact hp.early (by rw [hpc]; rfl) (by rw [hpc]; rfl) rfl rfl
  | creates _ _ hpc => exact hp.early (by rw [hpc]; rfl) (by rw [hpc]; rfl) rfl rfl
  | mapped hpc | unversioned hpc | unpinsVersion hpc | pinsVersion hpc =>
      exact hp.early (by rw [hpc]; rfl) (by rw [hpc]; rfl) rfl rfl
  | fileless hpc hfile =>
      refine ⟨nofun, fun _ _ h => absurd hfile h, fun _ _ file h => ?_⟩
      exact absurd (hfile.symm.trans h) (by simp)
  | reconciled conf file hpc hfile hresult =>
      have hconf := hp.accepted (by rw [hpc]; rfl) (by rw [hpc]; rfl) conf hfile
      exact .reconciled hhonest hconf hresult rfl rfl rfl rfl
  | unpinsProg hpc | pinsProg hpc =>
      exact hp.late (by rw [hpc]; rfl) rfl (fun _ => by rw [hpc]; rfl) rfl rfl rfl
  | attaches hpc => exact hp.late (by rw [hpc]; rfl) rfl nofun rfl rfl rfl
  | overruns hpc | hears hpc =>
      exact hp.late (by rw [hpc]; rfl) (by rw [hpc]; rfl) id rfl rfl rfl
  | hup hpc | ignores hpc => exact hp.late (by rw [hpc]; rfl) rfl nofun rfl rfl rfl
  | rejects path hpc => exact hp.late (by rw [hpc]; rfl) rfl nofun rfl rfl rfl
  | reloads path prev next file diag hpc hpath hfile hload hcheck hresult =>
      have hconf : next.Accepted :=
        ⟨a.confHost, (files.confs path).file, true, congrArg Prod.fst hload⟩
      exact .reconciled hhonest hconf hresult rfl rfl rfl rfl
  | breaks path prev next diag hpc => exact ⟨nofun, nofun, nofun⟩

theorem AttachProc.Held.sameWork {q : AttachProc} (hp : p.Held score k) (hsame : p.SameWork q) :
    q.Held score k := by
  constructor
  · rw [hsame.pc, hsame.cfg]
    exact hp.accepted
  · rw [hsame.pc, hsame.cfg, hsame.clean]
    exact hp.clean
  · rw [hsame.pc, hsame.cfg, hsame.clean, hsame.handles]
    exact hp.realised

theorem AttachProc.Held.frame {k' : Kernel} (hp : p.Held score k)
    (hview : p.pc.opened = true → p.pc.awaits = [] → k'.view p.handles = k.view p.handles) :
    p.Held score k' := by
  refine ⟨hp.accepted, hp.clean, fun h hclean file hfile => ?_⟩
  have hopened := AttachPc.opened_of_reconciled h
  rw [hview hopened.1 hopened.2]
  exact hp.realised h hclean file hfile

/-- Every answer of the kernel about a map is honest. -/
def Act.Honest : Act → Prop
  | .run _ a => a.env.Honest
  | _ => True

theorem World.Step.held {w w' : World} {act : Act} (hstep : w.Step score act w')
    (hhonest : act.Honest) (hpins : Pins w) (hone : w.Single)
    (hw : ∀ pid p, w.attaches pid = some p → p.Held score w.kernel) :
    ∀ pid p, w'.attaches pid = some p → p.Held score w'.kernel := by
  intro pid p hp
  rcases hstep.proc hp with
    ⟨old, hold, hsame, hact⟩ | hidle | ⟨a, old, r, rfl, hold, hcall, rfl, rfl⟩
  · refine .sameWork (.frame (hw pid old hold) fun hopened hmapped => ?_) hsame
    refine Kernel.view_of_heap fun m => ?_
    have hhandle := (hpins.refers pid old hold).handles hopened m (by simp [hmapped])
    rcases hstep.heap hpins hhandle with hkept | ⟨other, q, hcaller, hq, hqopened, hdir, -⟩
    · exact hkept
    · have hother := hone pid old other q hold hq (AttachPc.active_of_opened hopened)
        (AttachPc.active_of_opened hqopened) hdir.symm
      subst hother
      rw [hact hcaller]
  · exact .idle hidle
  · refine (hcall.held hhonest (hw pid old hold)).frame fun _ _ => ?_
    exact Kernel.view_of_heap fun m => by rw [World.setAttach_heap]

theorem World.Boot.held {w : World} (hboot : w.Boot) {acts : List Act}
    (hrun : Along (World.step score) (fun w act => (w.step score act).Single ∧ act.Honest)
      w acts) {pid : Nat} {p : AttachProc} (hp : (w.run score acts).attaches pid = some p) :
    p.Held score (w.run score acts).kernel := by
  have hnone : ∀ pid p, w.attaches pid = some p → p.Held score w.kernel := by
    intro pid p hp
    rw [hboot.attaches pid] at hp
    cases hp
  refine (hrun.invariant (I := fun w => Pins w ∧ w.Single ∧
    ∀ pid p, w.attaches pid = some p → p.Held score w.kernel)
    ⟨hboot.refers, hboot.exclusive.attaches, hnone⟩ ?_).2.2 pid p hp
  rintro w act ⟨hpins, hsingle, hheld⟩ ⟨hone, hhonest⟩
  have hstep := w.step_step score act
  exact ⟨hstep.refers hpins, hone, hstep.held hhonest hpins hsingle hheld⟩

/--
While directories have one loader each, no loader makes its link before the VIP, forwarding
and backend maps that its program reads hold its file, and they hold the file that was
reloaded last for as long as it serves, unless a reload breaks off.
-/
theorem attaches_with_file {w : World} (hboot : w.Boot) {acts : List Act}
    (hrun : Along (World.step score) (fun w act => (w.step score act).Single ∧ act.Honest)
      w acts) {pid : Nat} {p : AttachProc} {file : MarlinConf}
    (hp : (w.run score acts).attaches pid = some p) (hfile : p.cfg.file = some file)
    (hpc : p.pc = .attaching ∨ p.pc.holds = true ∧ p.clean = true) :
    Realised score file ((w.run score acts).kernel.view p.handles) := by
  have hheld := hboot.held hrun hp
  rcases hpc with hpc | ⟨hholds, hclean⟩
  · have hreconciled : p.pc.reconciled = true := by rw [hpc]; rfl
    have hclean := hheld.clean hreconciled (by rw [hpc]; rfl) (by simp [hfile])
    exact hheld.realised hreconciled hclean file hfile
  · have hreconciled : p.pc.reconciled = true := by
      cases h : p.pc <;> simp_all [AttachPc.holds, AttachPc.reconciled]
    exact hheld.realised hreconciled hclean file hfile

end

theorem attaches_with_file_open :
    ∃ p, (Sample.bootWorld.run Sample.score
        (Sample.hupEarly ++ List.replicate 4 (.run 0 Sample.goAhead))).attaches 0 = some p ∧
      Realised Sample.score (Sample.openConf.assigned Maps.fresh)
        ((Sample.bootWorld.run Sample.score
          (Sample.hupEarly ++ List.replicate 4 (.run 0 Sample.goAhead))).kernel.view p.handles) := by
  have hacts : ∀ act ∈ Sample.hupEarly ++ List.replicate 4 (.run 0 Sample.goAhead),
      act.Starts 0 ∧ act.Honest := by
    have hrun : ∀ n, ∀ act ∈ List.replicate n (Act.run 0 Sample.goAhead),
        act.Starts 0 ∧ act.Honest := by
      intro n act hact
      rw [List.eq_of_mem_replicate hact]
      exact ⟨trivial, Sample.calmEnv_calm.smooth.honest⟩
    simp only [Sample.hupEarly, Sample.attachFile, List.forall_mem_append, List.forall_mem_cons]
    exact ⟨⟨⟨⟨trivial, trivial⟩, ⟨rfl, trivial⟩, hrun 3⟩, ⟨trivial, trivial⟩, hrun 20⟩, hrun 4⟩
  obtain ⟨p, hready, -⟩ := Sample.hupEarly_ready
  obtain ⟨hserves, -⟩ := hready.serves
  rw [← World.run_append] at hserves
  refine ⟨_, hserves, ?_⟩
  have hlone : Along (World.step Sample.score)
      (fun w act => (w.step Sample.score act).Exclusive) Sample.bootWorld _ :=
    Sample.bootWorld_lone.along fun act hact => (hacts act hact).1
  have hsingle := hlone.mono (Q := fun w act => (w.step Sample.score act).Single)
    fun _ _ hone => hone.attaches
  exact attaches_with_file Sample.bootWorld_boot
    (hsingle.and (Along.of_forall fun act hact => (hacts act hact).2)) hserves rfl
    (Or.inr ⟨rfl, rfl⟩)

section

variable {S : Type} [LinearOrder S] {score : UInt64 → Nat → S} {k : Kernel} {files : Files}
  {pid : Nat} {p : AttachProc} {a : Answers} {r : Kernel × AttachProc}

/-! ## Maps outlive their loaders -/

def World.Undisturbed (dir : CBuf) (w : World) : Prop :=
  ∀ pid u, w.unpins pid = some u → u.pc.removes = true → u.cfg.pinDir ≠ dir

/-- The loaders of the directory leave the maps to others. -/
def World.Fileless (dir : CBuf) (w : World) : Prop :=
  ∀ pid p, w.attaches pid = some p → p.pc.opened = true → p.cfg.pinDir = dir → p.cfg.file = none

/-- A loader of the directory that has come to the map uses this one. -/
def AttachProc.Uses (dir : CBuf) (m : ObjMap) (load : Nat) (p : AttachProc) : Prop :=
  p.pc.opened = true → p.cfg.pinDir = dir → m ∉ p.pc.awaits → p.handles m = load

variable {dir : CBuf} {m : ObjMap} {load : Nat}

theorem AttachStep.pins_map (hcall : AttachStep score k files pid p a r)
    (hpin : k.pins dir (.map m) = some load) : r.1.pins dir (.map m) = some load := by
  cases hcall with
  | creates other rest hpc hfree =>
      by_cases hdir : dir = p.cfg.pinDir
      · subst hdir
        have hname : PinName.map m ≠ .map other := by
          rintro ⟨⟩
          rw [hpin] at hfree
          cases hfree
        exact (k.pin_pins_name _ _ hname).trans hpin
      · exact (k.pin_pins_dir _ _ hdir _).trans hpin
  | unpinsVersion | pinsVersion | unpinsProg | pinsProg =>
      exact (k.pin_pins_name _ _ (by simp)).trans hpin
  | _ => exact hpin

theorem World.Step.pins_map {w w' : World} {act : Act} (hstep : w.Step score act w')
    (hcalm : w.Undisturbed dir) (hpin : w.kernel.pins dir (.map m) = some load) :
    w'.kernel.pins dir (.map m) = some load := by
  cases hstep with
  | signals pid sig p hp =>
      rw [World.setAttach_pins]
      exact hpin
  | runsAttach pid a p r hp hcall =>
      rw [World.setAttach_pins]
      exact hcall.pins_map hpin
  | runsUnpin pid a u r hnone hu hcall =>
      rcases hcall.pins dir (.map m) with hkept | ⟨hdir, hremoves, -⟩
      · exact hkept.trans hpin
      · exact absurd hdir.symm (hcalm pid u hu hremoves)
  | _ => exact hpin

theorem AttachProc.Uses.moved {q : AttachProc} (hp : p.Uses dir m load)
    (hpc : p.pc.opened = true ∧ p.pc.awaits = q.pc.awaits) (hdir : q.cfg.pinDir = p.cfg.pinDir)
    (hhandles : q.handles = p.handles) : q.Uses dir m load := by
  intro _ hq hm
  rw [hhandles]
  exact hp hpc.1 (hdir ▸ hq) (hpc.2 ▸ hm)

theorem AttachProc.Uses.mapped (hp : p.Uses dir m load) {next : ObjMap} {rest : List ObjMap}
    (hpc : p.pc = .loading (next :: rest)) {found : Nat}
    (hfound : p.cfg.pinDir = dir → next = m → found = load) :
    AttachProc.Uses dir m load
      { p with pc := .loading rest, handles := Function.update p.handles next found } := by
  intro _ hdir hm
  by_cases hsame : m = next
  · subst hsame
    simp only [Function.update_self]
    exact hfound hdir rfl
  · simp only [Function.update_of_ne hsame]
    refine hp (by rw [hpc]; rfl) hdir ?_
    rw [hpc]
    simp only [AttachPc.awaits] at hm ⊢
    simp [hsame, hm]

theorem AttachStep.uses (hcall : AttachStep score k files pid p a r)
    (hpin : k.pins dir (.map m) = some load) (hp : p.Uses dir m load) :
    r.2.Uses dir m load := by
  cases hcall with
  | stays => exact hp
  | exits | refuses | configures => nofun
  | prepares pc hpc => exact fun h => absurd h (by simp [preparation_opened hpc])
  | opens => exact fun _ _ hm => absurd (mem_objMaps m) hm
  | reuses next rest found hpc hfound =>
      refine hp.mapped hpc fun hdir hnext => ?_
      rw [hdir, hnext] at hfound
      exact Option.some.inj (hfound.symm.trans hpin)
  | creates next rest hpc hfree =>
      refine hp.mapped hpc fun hdir hnext => ?_
      rw [hdir, hnext, hpin] at hfree
      cases hfree
  | mapped hpc | unversioned hpc | unpinsVersion hpc | pinsVersion hpc | fileless hpc
  | unpinsProg hpc | pinsProg hpc | attaches hpc | overruns hpc | hears hpc | hup hpc
  | ignores hpc => exact hp.moved (by rw [hpc]; exact ⟨rfl, rfl⟩) rfl rfl
  | rejects _ hpc => exact hp.moved (by rw [hpc]; exact ⟨rfl, rfl⟩) rfl rfl
  | reconciled _ _ hpc => exact hp.moved (by rw [hpc]; exact ⟨rfl, rfl⟩) rfl rfl
  | breaks _ _ _ _ hpc => exact hp.moved (by rw [hpc]; exact ⟨rfl, rfl⟩) rfl rfl
  | reloads _ _ _ _ _ hpc => exact hp.moved (by rw [hpc]; exact ⟨rfl, rfl⟩) rfl rfl

theorem AttachProc.Uses.sameWork {q : AttachProc} (hp : p.Uses dir m load)
    (hsame : p.SameWork q) : q.Uses dir m load := by
  rw [AttachProc.Uses, hsame.pc, hsame.cfg, hsame.handles]
  exact hp

structure World.Survives (start : World) (dir : CBuf) (m : ObjMap) (load : Nat) (w : World) :
    Prop where
  pins : Pins w
  pinned : w.kernel.pins dir (.map m) = some load
  uses : ∀ pid p, start.attaches pid = none → w.attaches pid = some p → p.Uses dir m load

theorem World.Step.survives {start w w' : World} {act : Act} (hstep : w.Step score act w')
    (hcalm : w.Undisturbed dir) (hw : start.Survives dir m load w) :
    start.Survives dir m load w' where
  pins := hstep.refers hw.pins
  pinned := hstep.pins_map hcalm hw.pinned
  uses pid p hnew hp := by
    rcases hstep.proc hp with ⟨old, hold, hsame, -⟩ | hidle |
      ⟨a, old, r, -, hold, hcall, -, rfl⟩
    · exact (hw.uses pid old hnew hold).sameWork hsame
    · exact fun h => absurd h (by simp [AttachPc.opened_of_idle hidle])
    · exact hcall.uses hw.pinned (hw.uses pid old hnew hold)

theorem World.Boot.refersRun {w : World} (hboot : w.Boot) (acts : List Act) :
    Pins (w.run score acts) :=
  List.foldlRecOn (motive := Pins) acts (World.step score) hboot.refers
    fun w hw act _ => (w.step_step score act).refers hw

structure World.EnvOnly (w : World) : Prop where
  fileless : ∀ pid p, w.attaches pid = some p → p.confPath = none ∧ p.cfg.file = none
  unpins : ∀ pid, w.unpins pid = none

def Act.EnvOnly : Act → Prop
  | .attach _ _ confPath => confPath = none
  | .unpin _ _ _ => False
  | _ => True

theorem AttachStep.noFile (hcall : AttachStep score k files pid p a r)
    (hp : p.confPath = none ∧ p.cfg.file = none) :
    r.2.confPath = none ∧ r.2.cfg.file = none := by
  obtain ⟨hpath, hfile⟩ := hp
  cases hcall with
  | configures cfg hpc hcfg =>
      rw [hpath] at hcfg
      exact ⟨hpath, loadConfig_fileless hcfg⟩
  | reconciled conf file hpc hsome => exact absurd (hfile.symm.trans hsome) (by simp)
  | reloads path prev next file diag hpc hsome => exact absurd (hpath.symm.trans hsome) (by simp)
  | _ => exact ⟨hpath, hfile⟩

theorem World.Step.envOnly {w w' : World} {act : Act} (hstep : w.Step score act w')
    (hact : act.EnvOnly) (hw : w.EnvOnly) : w'.EnvOnly := by
  have hset : ∀ (id : Nat) (k : Kernel) (q : AttachProc),
      q.confPath = none ∧ q.cfg.file = none → (w.setAttach id k q).EnvOnly := by
    intro id k q hq
    refine ⟨fun other p hp => ?_, hw.unpins⟩
    by_cases hother : other = id
    · subst hother
      rw [World.setAttach_self] at hp
      rw [← Option.some.inj hp]
      exact hq
    · rw [World.setAttach_other w k q hother] at hp
      exact hw.fileless other p hp
  have hnounpin : ∀ {id : Nat} {u : UnpinProc}, w.unpins id ≠ some u := by
    intro id u hu
    rw [hw.unpins id] at hu
    cases hu
  cases hstep with
  | removesIf | notices =>
      refine ⟨fun id p hp => ?_, hw.unpins⟩
      obtain ⟨old, hold, rfl⟩ := World.broadcast_attaches hp
      rw [(old.deliver_sameWork _ _).confPath, (old.deliver_sameWork _ _).cfg]
      exact hw.fileless id old hold
  | signals id sig p hp =>
      refine hset id _ _ ?_
      rcases p.signal_cases w.files sig with hsig | ⟨-, hsig⟩ | ⟨-, hsig⟩ <;>
        rw [hsig] <;> exact hw.fileless id p hp
  | stopsUnpin id sig u hu => exact absurd hu hnounpin
  | startsAttach id environ confPath =>
      obtain rfl : confPath = none := hact
      refine ⟨fun other p hp => ?_, hw.unpins⟩
      by_cases hother : other = id
      · subst hother
        rw [← Option.some.inj ((Function.update_self other _ w.attaches).symm.trans hp)]
        exact ⟨rfl, rfl⟩
      · exact hw.fileless other p ((Function.update_of_ne hother _ w.attaches).symm.trans hp)
  | startsUnpin => exact hact.elim
  | runsAttach id a p r hp hcall => exact hset id _ _ (hcall.noFile (hw.fileless id p hp))
  | runsUnpin id a u r _ hu => exact absurd hu hnounpin
  | _ => exact ⟨hw.fileless, hw.unpins⟩

theorem World.EnvOnly.along {w : World} (hw : w.EnvOnly) (dir : CBuf) {acts : List Act}
    (hacts : ∀ act ∈ acts, act.EnvOnly) :
    Along (World.step score) (fun w _ => w.Undisturbed dir ∧ w.Fileless dir) w acts := by
  induction acts generalizing w with
  | nil => trivial
  | cons act acts ih =>
      refine ⟨⟨fun pid u hu => ?_, fun pid p hp _ _ => (hw.fileless pid p hp).2⟩, ?_⟩
      · rw [hw.unpins pid] at hu
        cases hu
      · exact ih ((w.step_step score act).envOnly (hacts act List.mem_cons_self) hw)
          fun other hother => hacts other (List.mem_cons_of_mem act hother)

theorem World.EnvOnly.run {w : World} (hw : w.EnvOnly) {acts : List Act}
    (hacts : ∀ act ∈ acts, act.EnvOnly) : (w.run score acts).EnvOnly :=
  List.foldlRecOn (motive := World.EnvOnly) acts (World.step score) hw
    fun w hw act hact => (w.step_step score act).envOnly (hacts act hact) hw

end

namespace Sample

theorem bootWorld_envOnly : bootWorld.EnvOnly where
  fileless pid p hp := by
    rw [bootWorld_boot.attaches pid] at hp
    cases hp
  unpins _ := rfl

theorem attachFor_envOnly (pid n : Nat) : ∀ act ∈ attachFor pid n, act.EnvOnly := by
  intro act hact
  rcases List.mem_cons.mp hact with rfl | hact
  · rfl
  · rw [List.eq_of_mem_replicate hact]
    trivial

def takenOver : List Act := .signal 0 .kill :: attachFor 1 27

theorem takenOver_envOnly : ∀ act ∈ takenOver, act.EnvOnly :=
  List.forall_mem_cons.mpr ⟨trivial, attachFor_envOnly 1 27⟩

end Sample

end Marlin
