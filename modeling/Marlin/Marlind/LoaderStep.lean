import Marlin.Marlind.Loader

/-!
# What a call of the loader can do

`AttachStep` has one constructor for each way in which a call of `cmd_attach` can come out, and
`UnpinStep` one for each way in which a call of `cmd_unpin` can.  The invariants of runs are
proved from these.
-/

namespace Marlin

/-- The calls that make a process ready to load, in their order. -/
def preparation : List (AttachPc × AttachPc) :=
  [(.configured, .checked), (.checked, .signalled), (.signalled, .watching),
    (.watching, .opening)]

theorem preparation_holds {pc next : AttachPc} (hpc : (pc, next) ∈ preparation) :
    pc.holds = false ∧ next.holds = false := by
  simp only [preparation, List.mem_cons, Prod.mk.injEq, List.not_mem_nil, or_false] at hpc
  rcases hpc with ⟨rfl, rfl⟩ | ⟨rfl, rfl⟩ | ⟨rfl, rfl⟩ | ⟨rfl, rfl⟩ <;> exact ⟨rfl, rfl⟩

theorem preparation_active {pc next : AttachPc} (hpc : (pc, next) ∈ preparation) :
    pc.active = true ∧ pc ≠ .reloading := by
  simp only [preparation, List.mem_cons, Prod.mk.injEq, List.not_mem_nil, or_false] at hpc
  rcases hpc with ⟨rfl, rfl⟩ | ⟨rfl, rfl⟩ | ⟨rfl, rfl⟩ | ⟨rfl, rfl⟩ <;> simp [AttachPc.active]

section

variable {S : Type} [LinearOrder S] (score : UInt64 → Nat → S) (k : Kernel) (files : Files)
  (pid : Nat) (p : AttachProc) (a : Answers)

def reconciles (next : MarlinConf) :=
  reconcileApply score .layout next a.env 0 (k.view p.handles)

inductive AttachStep : Kernel × AttachProc → Prop
  | stays : AttachStep (k, p)
  | exits (code : Option Nat) : AttachStep (k, p.exit code)
  | configures (cfg : AttachConfig) (hpc : p.pc = .started)
      (hcfg : loadConfig k files p.environ p.confPath .full a = .ok cfg) :
      AttachStep (k, { p with
        pc := .configured
        cfg := cfg
        read := (p.confPath.map fun path => (files.confs path).edits).getD p.read })
  | prepares (pc : AttachPc) (hpc : (p.pc, pc) ∈ preparation) : AttachStep (k, { p with pc := pc })
  | opens (object : BpfObject) (hpc : p.pc = .opening)
      (hobject : files.objects p.cfg.objPath = some object) :
      AttachStep
        ({ k with
            loads := k.loads + 1
            loaded := Function.update k.loaded k.loads ⟨object, p.cfg.pinDir⟩
            heap := Function.update k.heap k.loads Maps.fresh },
          { p with pc := .loading objMaps, own := k.loads })
  | reuses (m : ObjMap) (rest : List ObjMap) (load : Nat) (hpc : p.pc = .loading (m :: rest))
      (hpin : k.pins p.cfg.pinDir (.map m) = some load) :
      AttachStep
        (k, { p with pc := .loading rest, handles := Function.update p.handles m load })
  | creates (m : ObjMap) (rest : List ObjMap) (hpc : p.pc = .loading (m :: rest))
      (hpin : k.pins p.cfg.pinDir (.map m) = none) :
      AttachStep (k.pin p.cfg.pinDir (.map m) (some p.own),
        { p with pc := .loading rest, handles := Function.update p.handles m p.own })
  | mapped (hpc : p.pc = .loading []) : AttachStep (k, { p with pc := .versionUnlink })
  | unversioned (hpc : p.pc = .versionUnlink) (hbuild : (k.loaded p.own).object.build = none) :
      AttachStep (k, { p with pc := .reconciling })
  | unpinsVersion (hpc : p.pc = .versionUnlink) :
      AttachStep (k.pin p.cfg.pinDir .version none, { p with pc := .versionPin })
  | pinsVersion (hpc : p.pc = .versionPin) (hpin : k.pins p.cfg.pinDir .version = none) :
      AttachStep (k.pin p.cfg.pinDir .version (some p.own), { p with pc := .reconciling })
  | fileless (hpc : p.pc = .reconciling) (hfile : p.cfg.file = none) :
      AttachStep (k, { p with pc := .progUnlink })
  | reconciled (conf file : MarlinConf) (hpc : p.pc = .reconciling) (hfile : p.cfg.file = some conf)
      (hresult : (reconciles score k p a conf).result = some file) :
      AttachStep (k.store p.handles (reconciles score k p a conf).store,
        { p with pc := .progUnlink, cfg := { p.cfg with file := some file }, clean := true })
  | refuses (conf : MarlinConf) (hpc : p.pc = .reconciling) (hfile : p.cfg.file = some conf)
      (hresult : (reconciles score k p a conf).result = none) :
      AttachStep (k.store p.handles (reconciles score k p a conf).store, p.exit (some exitConfig))
  | unpinsProg (hpc : p.pc = .progUnlink) :
      AttachStep (k.pin p.cfg.pinDir .prog none, { p with pc := .progPin })
  | pinsProg (hpc : p.pc = .progPin) (hpin : k.pins p.cfg.pinDir .prog = none) :
      AttachStep (k.pin p.cfg.pinDir .prog (some p.own), { p with pc := .attaching })
  | attaches (hpc : p.pc = .attaching) (hif : p.cfg.ifindex ∈ k.ifs.map Prod.fst)
      (hfree : p.cfg.ifindex ∉ k.links.map XdpLink.ifindex) :
      AttachStep
        ({ k with
            links := k.links ++ [⟨k.nextLink, p.cfg.ifindex, some p.own, some pid⟩]
            nextLink := k.nextLink + 1 },
          { p with pc := .serving, link := k.nextLink })
  | overruns (hpc : p.pc = .serving) : AttachStep (k, { p with sockErr := false })
  | hears (hpc : p.pc = .serving) (hsock : p.sockErr = false)
      (hsaw : (linkMonitorSawDellink p.cfg.ifindex p.queue).1 = false) :
      AttachStep (k, { p with queue := (linkMonitorSawDellink p.cfg.ifindex p.queue).2 })
  | hup (hpc : p.pc = .serving) : AttachStep (k, { p with hup := false, pc := .reloading })
  | ignores (hpc : p.pc = .reloading) (hfile : p.confPath = none ∨ p.cfg.file = none) :
      AttachStep (k, { p with pc := .serving })
  | rejects (path : CBuf) (hpc : p.pc = .reloading) (hpath : p.confPath = some path) :
      AttachStep (k, { p with pc := .serving, read := (files.confs path).edits })
  | reloads (path : CBuf) (prev next file : MarlinConf) (diag : ConfDiag) (hpc : p.pc = .reloading)
      (hpath : p.confPath = some path) (hfile : p.cfg.file = some prev)
      (hload : confLoad a.confHost (files.confs path).file .full true confDiagReset =
        (some next, diag))
      (hcheck : (confCheckAgainstPrevious next prev diag).1 = true)
      (hresult : (reconciles score k p a next).result = some file) :
      AttachStep (k.store p.handles (reconciles score k p a next).store,
        { p with
          pc := .serving
          read := (files.confs path).edits
          cfg := { p.cfg with file := some file }
          clean := true })
  | breaks (path : CBuf) (prev next : MarlinConf) (diag : ConfDiag) (hpc : p.pc = .reloading)
      (hpath : p.confPath = some path) (hfile : p.cfg.file = some prev)
      (hload : confLoad a.confHost (files.confs path).file .full true confDiagReset =
        (some next, diag))
      (hcheck : (confCheckAgainstPrevious next prev diag).1 = true)
      (hresult : (reconciles score k p a next).result = none) :
      AttachStep (k.store p.handles (reconciles score k p a next).store,
        { p with pc := .serving, read := (files.confs path).edits, clean := false })

theorem serveOnce_step (hpc : p.pc = .serving) :
    AttachStep score k files pid p a (serveOnce k p a) := by
  simp only [serveOnce]
  split
  · exact .exits _
  split
  · split
    · exact .overruns hpc
    · next hsock =>
        have hclear : p.sockErr = false := by simpa using hsock
        split
        · exact .exits _
        · next queue hsaw =>
            have hqueue : queue = (linkMonitorSawDellink p.cfg.ifindex p.queue).2 := by rw [hsaw]
            rw [hqueue]
            exact .hears hpc hclear (by rw [hsaw])
  split
  · split
    · exact .exits _
    split
    · exact .hup hpc
    · exact .exits _
  · exact .stays

theorem reloadNow_step (hpc : p.pc = .reloading) :
    AttachStep score k files pid p a (reloadNow score k files p a) := by
  simp only [reloadNow]
  split
  · next path prev hpath hfile =>
      split
      · exact .rejects path hpc hpath
      · next next diag hload =>
          split
          · exact .rejects path hpc hpath
          · next hcheck =>
              have haccept : (confCheckAgainstPrevious next prev diag).1 = true := by
                simpa using hcheck
              split
              · next hresult => exact .breaks path prev next diag hpc hpath hfile hload haccept hresult
              · next file hresult =>
                  exact .reloads path prev next file diag hpc hpath hfile hload haccept hresult
  · next hnone =>
      refine .ignores hpc ?_
      cases hpath : p.confPath with
      | none => exact Or.inl rfl
      | some path =>
          cases hfile : p.cfg.file with
          | none => exact Or.inr rfl
          | some prev => exact absurd hfile (hnone path prev hpath)

theorem attachCall_step : AttachStep score k files pid p a (attachCall score k files pid p a) := by
  cases hpc : p.pc with
  | started =>
      simp only [attachCall, hpc]
      split
      · exact .exits _
      · next cfg hcfg => exact .configures cfg hpc hcfg
  | configured =>
      simp only [attachCall, hpc]
      split
      · exact .exits _
      · exact .prepares _ (by simp [hpc, preparation])
  | checked =>
      simp only [attachCall, hpc]
      split
      · exact .prepares _ (by simp [hpc, preparation])
      · exact .exits _
  | signalled =>
      simp only [attachCall, hpc]
      split
      · exact .prepares _ (by simp [hpc, preparation])
      · exact .exits _
  | watching =>
      simp only [attachCall, hpc]
      split
      · exact .prepares _ (by simp [hpc, preparation])
      · exact .exits _
  | opening =>
      simp only [attachCall, hpc]
      split
      · exact .exits _
      · next object hobject =>
          split
          · exact .opens object hpc hobject
          · exact .exits _
  | loading rest =>
      cases rest with
      | nil =>
          simp only [attachCall, hpc]
          split
          · exact .mapped hpc
          · exact .exits _
      | cons m rest =>
          simp only [attachCall, hpc, loadMap]
          split
          · next load hpin =>
              split
              · exact .reuses m rest load hpc hpin
              · exact .exits _
          · next hpin =>
              split
              · exact .creates m rest hpc hpin
              · exact .exits _
  | versionUnlink =>
      simp only [attachCall, hpc]
      split
      · next hbuild => exact .unversioned hpc hbuild
      split
      · exact .unpinsVersion hpc
      · exact .exits _
  | versionPin =>
      simp only [attachCall, hpc]
      split
      · next hpin => exact .pinsVersion hpc hpin.2
      · exact .exits _
  | reconciling =>
      simp only [attachCall, hpc, reconcileAtStartup]
      split
      · next hfile => exact .fileless hpc hfile
      · next conf hfile =>
          split
          · next hresult => exact .refuses conf hpc hfile hresult
          · next file hresult => exact .reconciled conf file hpc hfile hresult
  | progUnlink =>
      simp only [attachCall, hpc]
      split
      · exact .unpinsProg hpc
      · exact .exits _
  | progPin =>
      simp only [attachCall, hpc]
      split
      · next hpin => exact .pinsProg hpc hpin.2
      · exact .exits _
  | attaching =>
      simp only [attachCall, hpc, attachLink]
      split
      · next hfree => exact .attaches hpc hfree.2.1 hfree.2.2
      · exact .exits _
  | serving =>
      simp only [attachCall, hpc]
      exact serveOnce_step score k files pid p a hpc
  | reloading =>
      simp only [attachCall, hpc]
      exact reloadNow_step score k files pid p a hpc
  | exited code =>
      simp only [attachCall, hpc]
      exact .stays

end

inductive UnpinStep (k : Kernel) (files : Files) (u : UnpinProc) (a : Answers) :
    Kernel × UnpinProc → Prop
  | stays : UnpinStep k files u a (k, u)
  | exits (code : Option Nat) : UnpinStep k files u a (k, u.exit code)
  | configures (cfg : AttachConfig) (hpc : u.pc = .started)
      (hcfg : loadConfig k files u.environ u.confPath .instanceOnly a = .ok cfg) :
      UnpinStep k files u a (k, { u with pc := .probing, cfg := cfg })
  | passes (hpc : u.pc = .probing)
      (hprobe : ∃ code, attachProbe a.probe k u.cfg.pinDir u.cfg.ifindex = .ok code ∧
        code ≠ exitAttached) :
      UnpinStep k files u a (k, { u with pc := .progUnlink })
  | unpinsProg (hpc : u.pc = .progUnlink) :
      UnpinStep k files u a (k.pin u.cfg.pinDir .prog none, { u with pc := .opening })
  | lists (hpc : u.pc = .opening) :
      UnpinStep k files u a (k, { u with pc := .clearing (k.entries u.cfg.pinDir) })
  | clears (name : PinName) (rest : List PinName) (hpc : u.pc = .clearing (name :: rest)) :
      UnpinStep k files u a (k.pin u.cfg.pinDir name none, { u with pc := .clearing rest })
  | skips (name : PinName) (rest : List PinName) (hpc : u.pc = .clearing (name :: rest)) :
      UnpinStep k files u a (k, { u with pc := .clearing rest })

theorem unpinCall_step (k : Kernel) (files : Files) (u : UnpinProc) (a : Answers) :
    UnpinStep k files u a (unpinCall k files u a) := by
  cases hpc : u.pc with
  | started =>
      simp only [unpinCall, hpc]
      split
      · exact .exits _
      · next cfg hcfg => exact .configures cfg hpc hcfg
  | probing =>
      simp only [unpinCall, hpc]
      split
      · exact .exits _
      · next code hprobe =>
          split
          · exact .exits _
          · next hcode => exact .passes hpc ⟨code, hprobe, hcode⟩
  | progUnlink =>
      simp only [unpinCall, hpc]
      split
      · exact .unpinsProg hpc
      · exact .exits _
  | opening =>
      simp only [unpinCall, hpc]
      split
      · exact .lists hpc
      · exact .exits _
  | clearing rest =>
      cases rest with
      | nil =>
          simp only [unpinCall, hpc]
          split
          · exact .exits _
          · exact .exits _
      | cons name rest =>
          cases hok : a.ok with
          | true =>
              simp only [unpinCall, hpc, hok, if_true]
              exact .clears name rest hpc
          | false =>
              simp only [unpinCall, hpc, hok, Bool.false_eq_true, if_false]
              exact .skips name rest hpc
  | exited code =>
      simp only [unpinCall, hpc]
      exact .stays

/-! ## What can happen to all of them -/

section

variable {S : Type} [LinearOrder S] (score : UInt64 → Nat → S) (w : World)

inductive World.Step : Act → World → Prop
  | stays (act : Act) : Step act w
  | edits (path : CBuf) (file : ConfFile) :
      Step (.edit path file) { w with
        files.confs := Function.update w.files.confs path
          ⟨(w.files.confs path).edits + 1, file⟩ }
  | installs (path : CBuf) (object : Option BpfObject) :
      Step (.install path object)
        { w with files.objects := Function.update w.files.objects path object }
  | addsIf (name : CBuf) :
      Step (.addIf name) { w with
        kernel.ifs := w.kernel.ifs ++ [(w.kernel.nextIfindex, name)]
        kernel.nextIfindex := w.kernel.nextIfindex + 1 }
  | removesIf (ifindex len : Nat) (overrun : List Nat) (hlen : nlmsgHdrlen ≤ len)
      (hfits : len ≤ linkMonitorBuf) :
      Step (.removeIf ifindex len overrun)
        ({ w with
          kernel.ifs := w.kernel.ifs.filter (·.1 ≠ ifindex)
          kernel.links := w.kernel.links.filter (·.ifindex ≠ ifindex) }.broadcast overrun
          [⟨rtmDellink, len, ifindex⟩])
  | notices (msgs : List NlMsg) (overrun : List Nat) :
      Step (.notice msgs overrun) (w.broadcast overrun msgs)
  | attachesForeign (ifindex : Nat) (hfree : ifindex ∉ w.kernel.links.map XdpLink.ifindex) :
      Step (.foreignAttach ifindex) { w with
        kernel.links := w.kernel.links ++ [⟨w.kernel.nextLink, ifindex, none, none⟩]
        kernel.nextLink := w.kernel.nextLink + 1 }
  | detachesForeign (id : Nat) :
      Step (.foreignDetach id) { w with
        kernel.links := w.kernel.links.filter fun link => link.id ≠ id ∨ link.owner ≠ none }
  | signals (pid : Nat) (sig : Signal) (p : AttachProc) (hpid : w.attaches pid = some p)
      (hended : p.pc.ended = false) :
      Step (.signal pid sig) (w.setAttach pid w.kernel (p.signal w.files sig))
  | stopsUnpin (pid : Nat) (sig : Signal) (u : UnpinProc) (hpid : w.unpins pid = some u) :
      Step (.signal pid sig)
        { w with unpins := Function.update w.unpins pid (some (u.exit none)) }
  | startsAttach (pid : Nat) (environ : Environ) (confPath : Option CBuf)
      (hattach : w.attaches pid = none) :
      Step (.attach pid environ confPath)
        { w with attaches := Function.update w.attaches pid (some (.start environ confPath)) }
  | startsUnpin (pid : Nat) (environ : Environ) (confPath : Option CBuf) :
      Step (.unpin pid environ confPath) { w with
        unpins := Function.update w.unpins pid (some ⟨.started, environ, confPath, .empty⟩) }
  | runsAttach (pid : Nat) (a : Answers) (p : AttachProc) (r : Kernel × AttachProc)
      (hpid : w.attaches pid = some p) (hcall : AttachStep score w.kernel w.files pid p a r) :
      Step (.run pid a) (w.setAttach pid r.1 r.2)
  | runsUnpin (pid : Nat) (a : Answers) (u : UnpinProc) (r : Kernel × UnpinProc)
      (hattach : w.attaches pid = none) (hpid : w.unpins pid = some u)
      (hcall : UnpinStep w.kernel w.files u a r) :
      Step (.run pid a)
        { w with kernel := r.1, unpins := Function.update w.unpins pid (some r.2) }

theorem World.step_step (act : Act) : w.Step score act (w.step score act) := by
  cases act with
  | edit path file => exact .edits path file
  | install path object => exact .installs path object
  | addIf name => exact .addsIf name
  | removeIf ifindex len overrun =>
      simp only [World.step]
      split
      · next hlen => exact .removesIf ifindex len overrun hlen.1 hlen.2
      · exact .stays _
  | notice msgs overrun => exact .notices msgs overrun
  | foreignAttach ifindex =>
      simp only [World.step]
      split
      · next hfree => exact .attachesForeign ifindex hfree.2
      · exact .stays _
  | foreignDetach id => exact .detachesForeign id
  | signal pid sig =>
      cases hp : w.attaches pid with
      | some p =>
          simp only [World.step, hp]
          split
          · exact .stays _
          · next hended => exact .signals pid sig p hp (by simpa using hended)
      | none =>
          cases hu : w.unpins pid with
          | some u =>
              simp only [World.step, hp, hu]
              split
              · exact .stays _
              · exact .stopsUnpin pid sig u hu
          | none =>
              simp only [World.step, hp, hu]
              exact .stays _
  | attach pid environ confPath =>
      simp only [World.step]
      split
      · next hfree => exact .startsAttach pid environ confPath hfree.1
      · exact .stays _
  | unpin pid environ confPath =>
      simp only [World.step]
      split
      · exact .startsUnpin pid environ confPath
      · exact .stays _
  | run pid a =>
      cases hp : w.attaches pid with
      | some p =>
          simp only [World.step, hp]
          exact .runsAttach pid a p _ hp (attachCall_step score w.kernel w.files pid p a)
      | none =>
          cases hu : w.unpins pid with
          | some u =>
              simp only [World.step, hp, hu]
              exact .runsUnpin pid a u _ hp hu (unpinCall_step w.kernel w.files u a)
          | none =>
              simp only [World.step, hp, hu]
              exact .stays _

end

end Marlin
