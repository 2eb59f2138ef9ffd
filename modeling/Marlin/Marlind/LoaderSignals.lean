import Marlin.Marlind.LoaderRuns

/-!
# A SIGHUP is not lost

A signal that arrives while a process starts or reloads waits for it, and the process reads
its file after it has taken the signal, not before.
-/

namespace Marlin

section

variable {S : Type} [LinearOrder S] {score : UInt64 → Nat → S} {w : World} {files : Files}

/-- The last SIGHUP is waiting, being handled, or the file has been read since. -/
structure AttachProc.Heard (files : Files) (p : AttachProc) : Prop where
  asked : p.asked ≤ p.edits files
  file : p.pc.active = true → p.confPath ≠ none → p.cfg.file ≠ none
  heard : p.pc.ended = false → p.hup = true ∨ p.pc = .reloading ∨ p.asked ≤ p.read

theorem AttachProc.Heard.exit {p : AttachProc} (hp : p.Heard files) (code : Option Nat) :
    (p.exit code).Heard files where
  asked := hp.asked
  file hactive := by cases hactive
  heard halive := by cases halive

theorem AttachProc.Heard.moved {p q : AttachProc} (hp : p.Heard files)
    (hpc : p.pc.active = true ∧ p.pc ≠ .reloading) (hpath : q.confPath = p.confPath)
    (hfile : p.cfg.file ≠ none → q.cfg.file ≠ none) (hhup : q.hup = p.hup)
    (hasked : q.asked = p.asked) (hread : q.read = p.read) : q.Heard files where
  asked := by
    rw [hasked, edits, hpath]
    exact hp.asked
  file _ hq := hfile (hp.file hpc.1 (hpath ▸ hq))
  heard _ := by
    have halive : p.pc.ended = false := by
      cases h : p.pc <;> simp_all [AttachPc.active, AttachPc.ended]
    rw [hhup, hasked, hread]
    exact (hp.heard halive).imp id fun h => Or.inr (h.resolve_left hpc.2)

theorem AttachProc.Heard.reads {p q : AttachProc} (hp : p.Heard files) {path : CBuf}
    (hpath : p.confPath = some path) (hqpath : q.confPath = p.confPath) (hfile : q.cfg.file ≠ none)
    (hasked : q.asked = p.asked) (hread : q.read = (files.confs path).edits) : q.Heard files := by
  have hedits : p.edits files = (files.confs path).edits := by
    simp only [edits, hpath, Option.map_some, Option.getD_some]
  have hasked' := hp.asked
  refine ⟨?_, fun _ _ => hfile, fun _ => Or.inr (Or.inr ?_)⟩
  · rw [hasked, edits, hqpath]
    exact hasked'
  · rw [hasked, hread, ← hedits]
    exact hasked'

theorem loadConfig_file {k : Kernel} {environ : Environ} {confPath : Option CBuf}
    {mode : ConfLoadMode} {a : Answers} {cfg : AttachConfig}
    (hcfg : loadConfig k files environ confPath mode a = .ok cfg) (hpath : confPath ≠ none) :
    ∃ path conf, confPath = some path ∧ cfg.file = some conf ∧
      (confLoad a.confHost (files.confs path).file mode true confDiagReset).1 = some conf := by
  cases confPath with
  | none => exact absurd rfl hpath
  | some path =>
      simp only [loadConfig, loadConfigFile] at hcfg
      split at hcfg
      · cases hcfg
      · next conf hconf =>
          split at hcfg
          · cases hcfg
          split at hcfg
          · cases hcfg
          · cases hcfg
            exact ⟨path, conf, rfl, rfl, hconf⟩

theorem AttachStep.heard {k : Kernel} {pid : Nat} {p : AttachProc} {a : Answers}
    {r : Kernel × AttachProc} (hcall : AttachStep score k files pid p a r)
    (hp : p.Heard files) : r.2.Heard files := by
  cases hcall with
  | stays => exact hp
  | exits code => exact hp.exit code
  | configures cfg hpc hcfg =>
      by_cases hpath : p.confPath = none
      · have hasked := hp.asked
        simp only [AttachProc.edits, hpath, Option.map_none, Option.getD_none,
          Nat.le_zero] at hasked
        refine ⟨hp.asked, fun _ h => absurd hpath h, fun _ => Or.inr (Or.inr ?_)⟩
        rw [hasked]
        exact Nat.zero_le _
      · obtain ⟨path, conf, hsome, hfile, -⟩ := loadConfig_file hcfg hpath
        refine hp.reads hsome rfl ?_ rfl ?_
        · simp [hfile]
        · simp [hsome]
  | prepares pc hpc => exact hp.moved (preparation_active hpc) rfl id rfl rfl rfl
  | opens object hpc => exact hp.moved (by simp [hpc, AttachPc.active]) rfl id rfl rfl rfl
  | reuses m rest load hpc => exact hp.moved (by simp [hpc, AttachPc.active]) rfl id rfl rfl rfl
  | creates m rest hpc => exact hp.moved (by simp [hpc, AttachPc.active]) rfl id rfl rfl rfl
  | mapped hpc => exact hp.moved (by simp [hpc, AttachPc.active]) rfl id rfl rfl rfl
  | unversioned hpc => exact hp.moved (by simp [hpc, AttachPc.active]) rfl id rfl rfl rfl
  | unpinsVersion hpc => exact hp.moved (by simp [hpc, AttachPc.active]) rfl id rfl rfl rfl
  | pinsVersion hpc => exact hp.moved (by simp [hpc, AttachPc.active]) rfl id rfl rfl rfl
  | fileless hpc => exact hp.moved (by simp [hpc, AttachPc.active]) rfl id rfl rfl rfl
  | reconciled conf file hpc =>
      exact hp.moved (by simp [hpc, AttachPc.active]) rfl (fun _ => Option.some_ne_none _) rfl rfl
        rfl
  | refuses conf => exact hp.exit _
  | unpinsProg hpc => exact hp.moved (by simp [hpc, AttachPc.active]) rfl id rfl rfl rfl
  | pinsProg hpc => exact hp.moved (by simp [hpc, AttachPc.active]) rfl id rfl rfl rfl
  | attaches hpc => exact hp.moved (by simp [hpc, AttachPc.active]) rfl id rfl rfl rfl
  | overruns hpc => exact hp.moved (by simp [hpc, AttachPc.active]) rfl id rfl rfl rfl
  | hears hpc => exact hp.moved (by simp [hpc, AttachPc.active]) rfl id rfl rfl rfl
  | hup hpc =>
      exact ⟨hp.asked, fun _ => hp.file (by rw [hpc]; rfl), fun _ => Or.inr (Or.inl rfl)⟩
  | ignores hpc hnone =>
      have hactive : p.pc.active = true := by rw [hpc]; rfl
      have hpath : p.confPath = none := by
        by_contra hsome
        exact hp.file hactive hsome (hnone.resolve_left hsome)
      have hasked := hp.asked
      simp only [AttachProc.edits, hpath, Option.map_none, Option.getD_none,
        Nat.le_zero] at hasked
      refine ⟨hp.asked, fun _ h => absurd hpath h, fun _ => Or.inr (Or.inr ?_)⟩
      rw [hasked]
      exact Nat.zero_le _
  | rejects path hpc hpath =>
      have hfile := hp.file (by rw [hpc]; rfl) (by simp [hpath])
      exact hp.reads hpath rfl hfile rfl rfl
  | reloads path prev next file diag hpc hpath =>
      exact hp.reads hpath rfl (Option.some_ne_none _) rfl rfl
  | breaks path prev next diag hpc hpath hfile =>
      exact hp.reads hpath rfl (by simp [hfile]) rfl rfl

theorem AttachProc.Heard.signal {p : AttachProc} (hp : p.Heard files) (sig : Signal) :
    (p.signal files sig).Heard files := by
  cases sig with
  | kill => exact hp.exit none
  | hup =>
      simp only [AttachProc.signal]
      split
      · exact ⟨Nat.le_refl _, hp.file, fun _ => Or.inl rfl⟩
      · exact hp.exit none
  | term =>
      simp only [AttachProc.signal]
      split
      · exact ⟨hp.asked, hp.file, hp.heard⟩
      · exact hp.exit none

theorem AttachProc.Heard.deliver {p : AttachProc} (hp : p.Heard files) (overrun : Bool)
    (msgs : List NlMsg) : (p.deliver overrun msgs).Heard files := by
  simp only [AttachProc.deliver]
  split
  · exact hp
  split
  · exact ⟨hp.asked, hp.file, hp.heard⟩
  · exact ⟨hp.asked, hp.file, hp.heard⟩

theorem AttachProc.Heard.start (environ : Environ) (confPath : Option CBuf) :
    (AttachProc.start environ confPath).Heard files where
  asked := Nat.zero_le _
  file hactive := by cases hactive
  heard _ := Or.inr (Or.inr (Nat.le_refl _))

theorem AttachProc.Heard.edited {p : AttachProc} (hp : p.Heard files) (path : CBuf)
    (file : ConfFile) :
    p.Heard { files with
      confs := Function.update files.confs path ⟨(files.confs path).edits + 1, file⟩ } where
  asked := by
    refine Nat.le_trans hp.asked ?_
    cases hconf : p.confPath with
    | none => simp [AttachProc.edits, hconf]
    | some own =>
        simp only [AttachProc.edits, hconf, Option.map_some, Option.getD_some]
        by_cases hown : own = path
        · subst hown
          rw [Function.update_self]
          exact Nat.le_succ _
        · rw [Function.update_of_ne hown]
  file := hp.file
  heard := hp.heard

theorem World.Step.heard {act : Act} {w' : World} (hstep : w.Step score act w')
    (hw : ∀ pid p, w.attaches pid = some p → p.Heard w.files) :
    ∀ pid p, w'.attaches pid = some p → p.Heard w'.files := by
  intro pid p hp
  cases hstep with
  | edits path file => exact (hw pid p hp).edited path file
  | installs path object =>
      have hold := hw pid p hp
      exact ⟨hold.asked, hold.file, hold.heard⟩
  | removesIf ifindex len overrun =>
      obtain ⟨old, hold, rfl⟩ := World.broadcast_attaches hp
      exact (hw pid old hold).deliver _ _
  | notices msgs overrun =>
      obtain ⟨old, hold, rfl⟩ := World.broadcast_attaches hp
      exact (hw pid old hold).deliver _ _
  | signals other sig old hold =>
      by_cases hsame : pid = other
      · subst hsame
        rw [World.setAttach_self] at hp
        rw [← Option.some.inj hp]
        exact (hw pid old hold).signal sig
      · rw [World.setAttach_other w _ _ hsame] at hp
        exact hw pid p hp
  | startsAttach other environ confPath =>
      by_cases hsame : pid = other
      · subst hsame
        rw [← Option.some.inj ((Function.update_self pid _ w.attaches).symm.trans hp)]
        exact .start environ confPath
      · exact hw pid p ((Function.update_of_ne hsame _ w.attaches).symm.trans hp)
  | runsAttach other a old r hold hcall =>
      by_cases hsame : pid = other
      · subst hsame
        rw [World.setAttach_self] at hp
        rw [← Option.some.inj hp]
        exact hcall.heard (hw pid old hold)
      · rw [World.setAttach_other w _ _ hsame] at hp
        exact hw pid p hp
  | _ => exact hw pid p hp

theorem World.Boot.heard (hboot : w.Boot) (acts : List Act) (pid : Nat) (p : AttachProc)
    (hp : (w.run score acts).attaches pid = some p) :
    p.Heard (w.run score acts).files := by
  have hnone : ∀ pid p, w.attaches pid = some p → p.Heard w.files := by
    intro pid p hp
    rw [hboot.attaches pid] at hp
    cases hp
  have hall := List.foldlRecOn
    (motive := fun w => ∀ pid p, w.attaches pid = some p → p.Heard w.files) acts
    (World.step score) hnone fun w hw act _ => (w.step_step score act).heard hw
  exact hall pid p hp

theorem AttachStep.asked {k : Kernel} {pid : Nat} {p : AttachProc} {a : Answers}
    {r : Kernel × AttachProc} (hcall : AttachStep score k files pid p a r) :
    r.2.asked = p.asked := by
  cases hcall <;> rfl

theorem AttachProc.deliver_asked (p : AttachProc) (overrun : Bool) (msgs : List NlMsg) :
    (p.deliver overrun msgs).asked = p.asked := by
  simp only [deliver]
  split
  · rfl
  split
  · rfl
  · rfl

theorem AttachProc.Heard.signal_asked {p : AttachProc} (hp : p.Heard files) (sig : Signal) :
    p.asked ≤ (p.signal files sig).asked := by
  rcases p.signal_cases files sig with hsig | ⟨-, hsig⟩ | ⟨-, hsig⟩
  · rw [hsig]
    exact Nat.le_refl _
  · rw [hsig]
    exact hp.asked
  · rw [hsig]

theorem World.Step.asked {act : Act} {w' : World} (hstep : w.Step score act w') {pid : Nat}
    {p : AttachProc} (hp : w.attaches pid = some p) (hheard : p.Heard w.files) :
    ∃ q, w'.attaches pid = some q ∧ p.asked ≤ q.asked := by
  cases hstep with
  | removesIf ifindex len overrun =>
      exact ⟨_, broadcast_of_attaches hp _ _, (p.deliver_asked _ _).ge⟩
  | notices msgs overrun => exact ⟨_, broadcast_of_attaches hp _ _, (p.deliver_asked _ _).ge⟩
  | signals other sig old hold =>
      by_cases hsame : pid = other
      · subst hsame
        obtain rfl : p = old := Option.some.inj (hp.symm.trans hold)
        exact ⟨_, setAttach_self .., hheard.signal_asked sig⟩
      · exact ⟨p, (setAttach_other w _ _ hsame).trans hp, Nat.le_refl _⟩
  | startsAttach other environ confPath hnone =>
      have hsame : pid ≠ other := by
        rintro rfl
        rw [hnone] at hp
        cases hp
      exact ⟨p, (Function.update_of_ne hsame _ w.attaches).trans hp, Nat.le_refl _⟩
  | runsAttach other a old r hold hcall =>
      by_cases hsame : pid = other
      · subst hsame
        obtain rfl : p = old := Option.some.inj (hp.symm.trans hold)
        exact ⟨r.2, setAttach_self .., hcall.asked.ge⟩
      · exact ⟨p, (setAttach_other w _ _ hsame).trans hp, Nat.le_refl _⟩
  | _ => exact ⟨p, hp, Nat.le_refl _⟩

theorem asked_le_of_run (acts : List Act) {w : World}
    (hheard : ∀ pid p, w.attaches pid = some p → p.Heard w.files) {pid : Nat} {p q : AttachProc}
    (hp : w.attaches pid = some p)
    (hq : (w.run score acts).attaches pid = some q) : p.asked ≤ q.asked := by
  induction acts generalizing w p with
  | nil => rw [Option.some.inj (hp.symm.trans hq)]
  | cons act acts ih =>
      have hstep := w.step_step score act
      obtain ⟨next, hnext, hle⟩ := hstep.asked hp (hheard pid p hp)
      exact Nat.le_trans hle (ih (hstep.heard hheard) hnext hq)

end

/-! ## A loader with a file -/

namespace Sample

def confPath : CBuf := cstr "/etc/marlin.toml"

theorem openToml_size : (fileToml [tunnelSrc] []).size < 2 ^ 31 := by
  decide

def openFile : ConfFile := file (fileToml [tunnelSrc] []) openToml_size

def attachFile (n : Nat) : List Act :=
  .edit confPath openFile :: .attach 0 ethEnviron (some confPath) ::
    List.replicate n (.run 0 goAhead)

theorem openConf_returns {start : Maps} (hstart : start.Bounded) :
    (reconcileApply score .layout openConf calmEnv 0 start).result =
      some (openConf.assigned start) := by
  obtain ⟨hacl, hports, hkeys, -⟩ := openConf_holds
  have hnone : ∀ list family, openConf.acl.list list family = [] := by
    intro list family
    rw [hacl]
    cases list <;> cases family <;> rfl
  exact openConf_accepted.returns score BackendKeys.layout_sound (readEnv fun _ _ => none) 0
    (readEnv_feasible (fun _ => rfl) openConf_accepted hports hkeys hstart fun list family =>
      Or.inr (hnone list family))

theorem handles_of_replicate {p : AttachProc} {n load : Nat}
    (h : objMaps.map p.handles = List.replicate n load) (m : ObjMap) : p.handles m = load := by
  have hmem : p.handles m ∈ objMaps.map p.handles := List.mem_map_of_mem (mem_objMaps m)
  rw [h] at hmem
  exact List.eq_of_mem_replicate hmem

structure Ready (w : World) (p : AttachProc) : Prop where
  proc : w.attaches 0 = some p
  pc : p.pc = .reconciling
  path : p.confPath = some confPath
  file : p.cfg.file = some openConf
  handles : ∀ m, p.handles m = 0
  heap : w.kernel.heap 0 = Maps.fresh
  prog : (w.kernel.loaded p.own).object.hasProg = true
  netdev : p.cfg.ifindex ∈ w.kernel.ifs.map Prod.fst
  links : w.kernel.links = []

theorem Ready.view {w : World} {p : AttachProc} (h : Ready w p) :
    w.kernel.view p.handles = Maps.fresh := by
  simp only [Kernel.view, h.handles, h.heap]

theorem ready_of_state {w : World} {hup : Bool} (hheap : w.kernel.heap 0 = Maps.fresh)
    (hstate : (w.attaches 0).map (fun p => (p.pc, p.own, p.cfg.ifindex, p.hup)) =
        some (.reconciling, 0, 2, hup) ∧
      (w.attaches 0).map (fun p => p.confPath) = some (some confPath) ∧
      (w.attaches 0).map (fun p => p.cfg.file) = some (some openConf) ∧
      (w.attaches 0).map (fun p => objMaps.map p.handles) = some (List.replicate 14 0) ∧
      (w.kernel.loaded 0).object.hasProg = true ∧ 2 ∈ w.kernel.ifs.map Prod.fst ∧
      w.kernel.links = []) :
    ∃ p, Ready w p ∧ p.hup = hup ∧ p.own = 0 ∧ p.cfg.ifindex = 2 := by
  obtain ⟨hproc, hpath, hfile, hhandles, hkernel⟩ := hstate
  obtain ⟨p, hp, hstate⟩ := Option.map_eq_some_iff.mp hproc
  simp only [Prod.mk.injEq] at hstate
  obtain ⟨hpc, hown, hif, hhup⟩ := hstate
  rw [hp, Option.map_some, Option.some.injEq] at hpath hfile hhandles
  refine ⟨p, ⟨hp, hpc, hpath, hfile, handles_of_replicate hhandles, hheap, ?_, ?_, hkernel.2.2⟩,
    hhup, hown, hif⟩
  · rw [hown]
    exact hkernel.1
  · rw [hif]
    exact hkernel.2.1

def served (w : World) (p : AttachProc) : AttachProc :=
  { p with
    pc := .serving
    cfg := { p.cfg with file := some (openConf.assigned Maps.fresh) }
    clean := true
    link := w.kernel.nextLink }

theorem Ready.serves {w : World} {p : AttachProc} (h : Ready w p) :
    (w.run score (List.replicate 4 (.run 0 goAhead))).attaches 0 = some (served w p) ∧
      (w.run score (List.replicate 4 (.run 0 goAhead))).files = w.files := by
  have hresult := openConf_returns Maps.fresh_bounded
  have hreconcile : attachCall score w.kernel w.files 0 p goAhead =
      (w.kernel.store p.handles (reconcileApply score .layout openConf calmEnv 0 Maps.fresh).store,
        { p with
          pc := .progUnlink
          cfg := { p.cfg with file := some (openConf.assigned Maps.fresh) }
          clean := true }) := by
    simp only [attachCall, h.pc, reconcileAtStartup, h.file, h.view, goAhead, hresult]
  obtain ⟨w₁, hstep₁, hp₁, hk₁, hfiles₁⟩ := World.step_call h.proc hreconcile rfl
  generalize hq : { p with
    pc := .progUnlink
    cfg := { p.cfg with file := some (openConf.assigned Maps.fresh) }
    clean := true } = q at hp₁
  have hqpc : q.pc = .progUnlink := by rw [← hq]
  have hunpin : attachCall score w₁.kernel w₁.files 0 q goAhead =
      (w₁.kernel.pin q.cfg.pinDir .prog none, { q with pc := .progPin }) := by
    have hprog : (w₁.kernel.loaded q.own).object.hasProg = true := by
      rw [hk₁, ← hq]
      exact h.prog
    simp only [attachCall, hqpc]
    rw [if_pos ⟨rfl, hprog⟩]
  obtain ⟨w₂, hstep₂, hp₂, hk₂, hfiles₂⟩ := World.step_call hp₁ hunpin rfl
  have hpin : attachCall score w₂.kernel w₂.files 0 { q with pc := .progPin } goAhead =
      (w₂.kernel.pin q.cfg.pinDir .prog (some q.own), { q with pc := .attaching }) := by
    simp only [attachCall]
    rw [if_pos ⟨rfl, by rw [hk₂]; simp [Kernel.pin]⟩]
  obtain ⟨w₃, hstep₃, hp₃, hk₃, hfiles₃⟩ := World.step_call hp₂ hpin rfl
  have hifs : w₃.kernel.ifs = w.kernel.ifs ∧ w₃.kernel.links = w.kernel.links ∧
      w₃.kernel.nextLink = w.kernel.nextLink := by
    rw [hk₃, hk₂, hk₁]
    exact ⟨rfl, rfl, rfl⟩
  have hlink : attachCall score w₃.kernel w₃.files 0 { q with pc := .attaching } goAhead =
      ({ w₃.kernel with
          links := w₃.kernel.links ++ [⟨w₃.kernel.nextLink, q.cfg.ifindex, some q.own, some 0⟩]
          nextLink := w₃.kernel.nextLink + 1 }, served w p) := by
    have hnetdev : q.cfg.ifindex ∈ w₃.kernel.ifs.map Prod.fst ∧
        q.cfg.ifindex ∉ w₃.kernel.links.map XdpLink.ifindex := by
      rw [hifs.1, hifs.2.1, h.links, ← hq]
      exact ⟨h.netdev, List.not_mem_nil⟩
    simp only [attachCall, attachLink]
    rw [if_pos ⟨rfl, hnetdev⟩, hifs.2.2, ← hq]
    rfl
  obtain ⟨w₄, hstep₄, hp₄, -, hfiles₄⟩ := World.step_call hp₃ hlink rfl
  have hrun : w.run score (List.replicate 4 (.run 0 goAhead)) = w₄ := by
    rw [← hstep₄, ← hstep₃, ← hstep₂, ← hstep₁]
    rfl
  rw [hrun]
  exact ⟨hp₄, by rw [hfiles₄, hfiles₃, hfiles₂, hfiles₁]⟩

theorem badToml_size : (tomlTable []).size < 2 ^ 31 := by
  decide

def badFile : ConfFile := file (tomlTable []) badToml_size

theorem badFile_refused :
    (confLoad confHost badFile .full true confDiagReset).1 = none := by
  decide +kernel

theorem Ready.refuses {w : World} {p : AttachProc} (h : Ready w p) (hhup : p.hup = true) :
    ∃ q, (w.run score (List.replicate 4 (.run 0 goAhead) ++
        [.edit confPath badFile, .run 0 goAhead, .run 0 goAhead])).attaches 0 = some q ∧
      q.pc = .serving ∧ q.hup = false := by
  obtain ⟨hserves, -⟩ := h.serves
  rw [World.run_append]
  generalize w.run score (List.replicate 4 (.run 0 goAhead)) = v at hserves
  generalize hv₁ : v.step score (.edit confPath badFile) = v₁
  have hp₁ : v₁.attaches 0 = some (served w p) := by
    rw [← hv₁]
    exact hserves
  have hfile₁ : (v₁.files.confs confPath).file = badFile := by
    rw [← hv₁]
    simp only [World.step, Function.update_self]
  have htaken : attachCall score v₁.kernel v₁.files 0 (served w p) goAhead =
      (v₁.kernel, { served w p with hup := false, pc := .reloading }) := by
    simp only [attachCall, served, serveOnce, goAhead, hhup]
    rfl
  obtain ⟨v₂, hstep₂, hp₂, hk₂, hfiles₂⟩ := World.step_call hp₁ htaken rfl
  obtain ⟨diag, hload⟩ : ∃ diag, confLoad confHost badFile .full true confDiagReset =
      (none, diag) := ⟨_, Prod.ext badFile_refused rfl⟩
  have hrefused : attachCall score v₂.kernel v₂.files 0
      { served w p with hup := false, pc := .reloading } goAhead =
        (v₂.kernel, { served w p with
          hup := false
          pc := .serving
          read := (v₂.files.confs confPath).edits }) := by
    rw [hfiles₂]
    simp only [attachCall, reloadNow, served, h.path, hfile₁, goAhead, hload]
  obtain ⟨v₃, hstep₃, hp₃, -, -⟩ := World.step_call hp₂ hrefused rfl
  rw [World.run_cons, hv₁, World.run_cons, hstep₂, World.run_cons, hstep₃]
  exact ⟨_, hp₃, rfl, rfl⟩

def hupEarly : List Act := attachFile 3 ++ .signal 0 .hup :: List.replicate 20 (.run 0 goAhead)

theorem hupEarly_ready :
    ∃ p, Ready (bootWorld.run score hupEarly) p ∧ p.hup = true ∧ p.own = 0 ∧
      p.cfg.ifindex = 2 :=
  ready_of_state rfl (by decide +kernel)

end Sample

section

variable {S : Type} [LinearOrder S] {score : UInt64 → Nat → S} {w : World}

/--
A SIGHUP that is sent to a process which has blocked it is not lost: whatever else happens
meanwhile, once the process waits again with no SIGHUP before it, it has read its file as
that was when the signal was sent, or later.
-/
theorem sighup_not_lost (hboot : w.Boot) (before after : List Act) (pid : Nat) (p q : AttachProc)
    (hp : (w.run score before).attaches pid = some p)
    (hsignals : p.pc.signals = true)
    (hq : (w.run score (before ++ .signal pid .hup :: after)).attaches pid = some q)
    (hidle : q.pc = .serving) (hhup : q.hup = false) :
    p.edits (w.run score before).files ≤ q.read := by
  have hheard := hboot.heard (before ++ .signal pid .hup :: after) pid q hq
  have hread : q.asked ≤ q.read := by
    rcases hheard.heard (by rw [hidle]; rfl) with h | h | h
    · rw [hhup] at h
      cases h
    · rw [hidle] at h
      cases h
    · exact h
  refine Nat.le_trans ?_ hread
  rw [World.run_append, World.run_cons] at hq
  have hsent : ((w.run score before).step score (.signal pid .hup)).attaches pid =
      some { p with hup := true, asked := p.edits (w.run score before).files } := by
    have halive : p.pc.ended = false := by
      cases hpc : p.pc <;> simp_all [AttachPc.signals, AttachPc.ended]
    simp only [World.step, hp, halive, Bool.false_eq_true, if_false]
    rw [World.setAttach_self]
    simp only [AttachProc.signal, hsignals, if_true]
  refine asked_le_of_run after ?_ hsent hq
  have hstep := (w.run score before).step_step score (.signal pid .hup)
  exact hstep.heard fun pid p hp => hboot.heard before pid p hp

/-- The SIGHUP comes before the maps are open, and the file is edited once more before the
loader gets to it. -/
theorem sighup_not_lost_early : ∃ q, (Sample.bootWorld.run Sample.score
    (Sample.attachFile 3 ++ .signal 0 .hup :: (List.replicate 24 (.run 0 Sample.goAhead) ++
      [.edit Sample.confPath Sample.badFile, .run 0 Sample.goAhead,
        .run 0 Sample.goAhead]))).attaches 0 = some q ∧ 1 ≤ q.read := by
  have hstart : ((Sample.bootWorld.run Sample.score (Sample.attachFile 3)).attaches 0).map
      (fun p => (p.pc, p.edits (Sample.bootWorld.run Sample.score (Sample.attachFile 3)).files)) =
        some (.signalled, 1) := by
    decide +kernel
  obtain ⟨p, hp, hstate⟩ := Option.map_eq_some_iff.mp hstart
  obtain ⟨hpc, hedits⟩ := Prod.mk.inj hstate
  obtain ⟨ready, hready, hhup, -, -⟩ := Sample.hupEarly_ready
  obtain ⟨q, hq, hidle, hqhup⟩ := hready.refuses hhup
  have hacts : Sample.hupEarly ++ (List.replicate 4 (.run 0 Sample.goAhead) ++
      [.edit Sample.confPath Sample.badFile, .run 0 Sample.goAhead, .run 0 Sample.goAhead]) =
      Sample.attachFile 3 ++ .signal 0 .hup :: (List.replicate 24 (.run 0 Sample.goAhead) ++
        [.edit Sample.confPath Sample.badFile, .run 0 Sample.goAhead, .run 0 Sample.goAhead]) :=
    rfl
  rw [← World.run_append, hacts] at hq
  refine ⟨q, hq, ?_⟩
  rw [← hedits]
  exact sighup_not_lost Sample.bootWorld_boot (Sample.attachFile 3) _ 0 p q hp
    (by rw [hpc]; rfl) hq hidle hqhup

end

end Marlin
