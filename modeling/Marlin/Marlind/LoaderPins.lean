import Marlin.Marlind.LoaderRuns

/-!
# Pins

Pins and handles of a directory refer to what was loaded for that directory, in every
interleaving.  While each directory has one loader, the pins in it are that loader's own: a
`--unpin` that comes while it serves is refused, and one that gets through finds it gone.
-/

namespace Marlin

open Marlin.Library

namespace AttachPc

def opened : AttachPc → Bool
  | .loading _ | .versionUnlink | .versionPin | .reconciling | .progUnlink | .progPin
  | .attaching | .serving | .reloading => true
  | _ => false

def awaits : AttachPc → List ObjMap
  | .loading rest => rest
  | _ => []

def versioned : AttachPc → Bool
  | .reconciling | .progUnlink | .progPin | .attaching | .serving | .reloading => true
  | _ => false

def programmed : AttachPc → Bool
  | .attaching | .serving | .reloading => true
  | _ => false

theorem active_of_opened {pc : AttachPc} (h : pc.opened = true) : pc.active = true := by
  cases pc <;> simp_all [opened, active]

theorem opened_of_versioned {pc : AttachPc} (h : pc.versioned = true) : pc.opened = true := by
  cases pc <;> simp_all [opened, versioned]

theorem versioned_of_programmed {pc : AttachPc} (h : pc.programmed = true) :
    pc.versioned = true := by
  cases pc <;> simp_all [programmed, versioned]

theorem programmed_of_holds {pc : AttachPc} (h : pc.holds = true) : pc.programmed = true := by
  cases pc <;> simp_all [programmed, holds]

end AttachPc

namespace Kernel

def Has (k : Kernel) (load : Nat) (dir : CBuf) : Prop :=
  load < k.loads ∧ (k.loaded load).pinDir = dir

structure Extends (k k' : Kernel) : Prop where
  loads : k.loads ≤ k'.loads
  loaded : ∀ load < k.loads, k'.loaded load = k.loaded load

theorem Extends.refl (k : Kernel) : k.Extends k := ⟨Nat.le_refl _, fun _ _ => rfl⟩

theorem Has.mono {k k' : Kernel} {load : Nat} {dir : CBuf} (h : k.Has load dir)
    (hle : k.Extends k') : k'.Has load dir := by
  refine ⟨Nat.lt_of_lt_of_le h.1 hle.loads, ?_⟩
  rw [hle.loaded load h.1]
  exact h.2

theorem pin_pins (k : Kernel) (dir : CBuf) (name : PinName) (obj : Option Nat) :
    (k.pin dir name obj).pins dir name = obj := by
  simp only [pin, Function.update_self]

theorem pin_pins_name (k : Kernel) (dir : CBuf) {other : CBuf} {name file : PinName}
    (obj : Option Nat) (hfile : file ≠ name) :
    (k.pin dir name obj).pins other file = k.pins other file := by
  by_cases hdir : other = dir
  · simp only [pin, hdir, Function.update_self, Function.update_of_ne hfile]
  · simp only [pin, Function.update_of_ne hdir]

theorem pin_pins_dir (k : Kernel) {dir other : CBuf} (name : PinName) (obj : Option Nat)
    (hother : other ≠ dir) (file : PinName) :
    (k.pin dir name obj).pins other file = k.pins other file := by
  simp only [pin, Function.update_of_ne hother]

theorem pin_pins_cases (k : Kernel) (dir : CBuf) (name : PinName) (obj : Option Nat)
    (other : CBuf) (file : PinName) :
    (k.pin dir name obj).pins other file = k.pins other file ∨
      other = dir ∧ (k.pin dir name obj).pins other file = obj := by
  by_cases hdir : other = dir
  · subst hdir
    by_cases hname : file = name
    · subst hname
      exact Or.inr ⟨rfl, k.pin_pins ..⟩
    · exact Or.inl (k.pin_pins_name other obj hname)
  · exact Or.inl (k.pin_pins_dir name obj hdir file)

end Kernel

section

variable {S : Type} [LinearOrder S] {score : UInt64 → Nat → S} {k : Kernel} {files : Files}
  {pid : Nat} {p : AttachProc} {a : Answers} {r : Kernel × AttachProc}

/-! ## Loads -/

theorem AttachStep.extends (hcall : AttachStep score k files pid p a r) : k.Extends r.1 := by
  cases hcall with
  | opens object =>
      refine ⟨Nat.le_succ _, fun load hload => ?_⟩
      exact Function.update_of_ne (Nat.ne_of_lt hload) ..
  | _ => exact ⟨Nat.le_refl _, fun _ _ => rfl⟩

theorem UnpinStep.extends {u : UnpinProc} {r : Kernel × UnpinProc}
    (hcall : UnpinStep k files u a r) : k.Extends r.1 := by
  cases hcall with
  | _ => exact ⟨Nat.le_refl _, fun _ _ => rfl⟩

theorem World.setAttach_extends {w : World} {pid : Nat} {k' : Kernel} {p : AttachProc}
    (h : k.Extends k') : k.Extends (w.setAttach pid k' p).kernel := by
  simp only [World.setAttach]
  split
  · exact ⟨h.loads, h.loaded⟩
  · exact h

theorem World.setAttach_pins (w : World) (pid : Nat) (k : Kernel) (p : AttachProc) :
    (w.setAttach pid k p).kernel.pins = k.pins := by
  simp only [World.setAttach]
  split
  · rfl
  · rfl

theorem World.Step.extends {w w' : World} {act : Act} (hstep : w.Step score act w') :
    w.kernel.Extends w'.kernel := by
  cases hstep with
  | signals pid sig p hp => exact World.setAttach_extends (.refl _)
  | runsAttach pid a p r hp hcall => exact World.setAttach_extends hcall.extends
  | runsUnpin pid a u r hnone hu hcall => exact hcall.extends
  | _ => exact ⟨Nat.le_refl _, fun _ _ => rfl⟩

/-- Everything that a process refers to was loaded for its directory. -/
structure AttachProc.Refers (k : Kernel) (p : AttachProc) : Prop where
  own : p.pc.opened = true → k.Has p.own p.cfg.pinDir
  handles : p.pc.opened = true → ∀ m, m ∉ p.pc.awaits → k.Has (p.handles m) p.cfg.pinDir

structure Pins (w : World) : Prop where
  pinned : ∀ dir name load, w.kernel.pins dir name = some load → w.kernel.Has load dir
  refers : ∀ pid p, w.attaches pid = some p → p.Refers w.kernel

theorem AttachProc.Refers.mono {k' : Kernel} (hp : p.Refers k) (hle : k.Extends k') :
    p.Refers k' :=
  ⟨fun h => (hp.own h).mono hle, fun h m hm => (hp.handles h m hm).mono hle⟩

theorem AttachProc.Refers.idle (hp : p.pc.opened = false) : p.Refers k := by
  constructor
  · intro h
    rw [hp] at h
    cases h
  · intro h
    rw [hp] at h
    cases h

theorem AttachProc.Refers.moved {k' : Kernel} {q : AttachProc} (hp : p.Refers k)
    (hle : k.Extends k') (hpc : p.pc.opened = true ∧ p.pc.awaits = q.pc.awaits)
    (hdir : q.cfg.pinDir = p.cfg.pinDir) (hown : q.own = p.own) (hhandles : q.handles = p.handles) :
    q.Refers k' := by
  constructor
  · intro _
    rw [hdir, hown]
    exact (hp.own hpc.1).mono hle
  · intro _ m hm
    rw [hdir, hhandles]
    exact (hp.handles hpc.1 m (hpc.2 ▸ hm)).mono hle

theorem AttachProc.Refers.mapped {k' : Kernel} (hp : p.Refers k) (hle : k.Extends k')
    {m : ObjMap} {rest : List ObjMap} (hpc : p.pc = .loading (m :: rest)) {load : Nat}
    (hload : k.Has load p.cfg.pinDir) :
    AttachProc.Refers k'
      { p with pc := .loading rest, handles := Function.update p.handles m load } := by
  have hopened : p.pc.opened = true := by rw [hpc]; rfl
  constructor
  · exact fun _ => (hp.own hopened).mono hle
  · intro _ other hother
    by_cases hsame : other = m
    · subst hsame
      simp only [Function.update_self]
      exact hload.mono hle
    · simp only [Function.update_of_ne hsame]
      refine (hp.handles hopened other ?_).mono hle
      rw [hpc]
      simp only [AttachPc.awaits] at hother ⊢
      simp [hsame, hother]

theorem preparation_opened {pc next : AttachPc} (hpc : (pc, next) ∈ preparation) :
    next.opened = false := by
  simp only [preparation, List.mem_cons, Prod.mk.injEq, List.not_mem_nil, or_false] at hpc
  rcases hpc with ⟨rfl, rfl⟩ | ⟨rfl, rfl⟩ | ⟨rfl, rfl⟩ | ⟨rfl, rfl⟩ <;> rfl

theorem AttachStep.refers (hcall : AttachStep score k files pid p a r) (hp : p.Refers k)
    (hpinned : ∀ name load, k.pins p.cfg.pinDir name = some load → k.Has load p.cfg.pinDir) :
    r.2.Refers r.1 := by
  have hle := hcall.extends
  cases hcall with
  | stays => exact hp
  | exits code => exact .idle rfl
  | configures cfg hpc => exact .idle rfl
  | prepares pc hpc => exact .idle (preparation_opened hpc)
  | opens object hpc =>
      refine ⟨fun _ => ⟨Nat.lt_succ_self _, ?_⟩, fun _ m hm => absurd (mem_objMaps m) hm⟩
      simp only [Function.update_self]
  | reuses m rest load hpc hpin => exact hp.mapped hle hpc (hpinned _ load hpin)
  | creates m rest hpc => exact hp.mapped hle hpc (hp.own (by rw [hpc]; rfl))
  | mapped hpc => exact hp.moved hle (by rw [hpc]; exact ⟨rfl, rfl⟩) rfl rfl rfl
  | unversioned hpc => exact hp.moved hle (by rw [hpc]; exact ⟨rfl, rfl⟩) rfl rfl rfl
  | unpinsVersion hpc => exact hp.moved hle (by rw [hpc]; exact ⟨rfl, rfl⟩) rfl rfl rfl
  | pinsVersion hpc => exact hp.moved hle (by rw [hpc]; exact ⟨rfl, rfl⟩) rfl rfl rfl
  | fileless hpc => exact hp.moved hle (by rw [hpc]; exact ⟨rfl, rfl⟩) rfl rfl rfl
  | reconciled conf file hpc => exact hp.moved hle (by rw [hpc]; exact ⟨rfl, rfl⟩) rfl rfl rfl
  | refuses conf => exact .idle rfl
  | unpinsProg hpc => exact hp.moved hle (by rw [hpc]; exact ⟨rfl, rfl⟩) rfl rfl rfl
  | pinsProg hpc => exact hp.moved hle (by rw [hpc]; exact ⟨rfl, rfl⟩) rfl rfl rfl
  | attaches hpc => exact hp.moved hle (by rw [hpc]; exact ⟨rfl, rfl⟩) rfl rfl rfl
  | overruns hpc => exact hp.moved hle (by rw [hpc]; exact ⟨rfl, rfl⟩) rfl rfl rfl
  | hears hpc => exact hp.moved hle (by rw [hpc]; exact ⟨rfl, rfl⟩) rfl rfl rfl
  | hup hpc => exact hp.moved hle (by rw [hpc]; exact ⟨rfl, rfl⟩) rfl rfl rfl
  | ignores hpc => exact hp.moved hle (by rw [hpc]; exact ⟨rfl, rfl⟩) rfl rfl rfl
  | rejects path hpc => exact hp.moved hle (by rw [hpc]; exact ⟨rfl, rfl⟩) rfl rfl rfl
  | reloads path prev next file diag hpc =>
      exact hp.moved hle (by rw [hpc]; exact ⟨rfl, rfl⟩) rfl rfl rfl
  | breaks path prev next diag hpc =>
      exact hp.moved hle (by rw [hpc]; exact ⟨rfl, rfl⟩) rfl rfl rfl

theorem AttachStep.pins (hcall : AttachStep score k files pid p a r) (dir : CBuf)
    (name : PinName) :
    r.1.pins dir name = k.pins dir name ∨ dir = p.cfg.pinDir ∧ p.pc.opened = true ∧
      (r.1.pins dir name = none ∨ r.1.pins dir name = some p.own) := by
  cases hcall with
  | creates m rest hpc =>
      refine (k.pin_pins_cases p.cfg.pinDir (.map m) (some p.own) dir name).imp id fun h => ?_
      exact ⟨h.1, by rw [hpc]; rfl, Or.inr h.2⟩
  | unpinsVersion hpc =>
      refine (k.pin_pins_cases p.cfg.pinDir .version none dir name).imp id fun h => ?_
      exact ⟨h.1, by rw [hpc]; rfl, Or.inl h.2⟩
  | pinsVersion hpc =>
      refine (k.pin_pins_cases p.cfg.pinDir .version (some p.own) dir name).imp id fun h => ?_
      exact ⟨h.1, by rw [hpc]; rfl, Or.inr h.2⟩
  | unpinsProg hpc =>
      refine (k.pin_pins_cases p.cfg.pinDir .prog none dir name).imp id fun h => ?_
      exact ⟨h.1, by rw [hpc]; rfl, Or.inl h.2⟩
  | pinsProg hpc =>
      refine (k.pin_pins_cases p.cfg.pinDir .prog (some p.own) dir name).imp id fun h => ?_
      exact ⟨h.1, by rw [hpc]; rfl, Or.inr h.2⟩
  | _ => exact Or.inl rfl

theorem UnpinStep.pins {u : UnpinProc} {r : Kernel × UnpinProc} (hcall : UnpinStep k files u a r)
    (dir : CBuf) (name : PinName) :
    r.1.pins dir name = k.pins dir name ∨
      dir = u.cfg.pinDir ∧ u.pc.removes = true ∧ r.1.pins dir name = none := by
  cases hcall with
  | unpinsProg hpc =>
      refine (k.pin_pins_cases u.cfg.pinDir .prog none dir name).imp id fun h => ?_
      exact ⟨h.1, by rw [hpc]; rfl, h.2⟩
  | clears file rest hpc =>
      refine (k.pin_pins_cases u.cfg.pinDir file none dir name).imp id fun h => ?_
      exact ⟨h.1, by rw [hpc]; rfl, h.2⟩
  | _ => exact Or.inl rfl

/-! ## Processes from step to step -/

theorem AttachProc.SameWork.refl (p : AttachProc) : p.SameWork p :=
  ⟨rfl, rfl, rfl, rfl, rfl, rfl, rfl, rfl, rfl⟩

theorem AttachProc.signal_work (p : AttachProc) (files : Files) (sig : Signal) :
    p.SameWork (p.signal files sig) ∨ (p.signal files sig).pc.active = false := by
  rcases p.signal_cases files sig with hsig | ⟨-, hsig⟩ | ⟨-, hsig⟩
  · rw [hsig]
    exact Or.inr rfl
  · rw [hsig]
    exact Or.inl ⟨rfl, rfl, rfl, rfl, rfl, rfl, rfl, rfl, rfl⟩
  · rw [hsig]
    exact Or.inl ⟨rfl, rfl, rfl, rfl, rfl, rfl, rfl, rfl, rfl⟩

/-- A process after a step has not moved on, has just started, has been stopped, or has made
its call. -/
theorem World.Step.proc {w w' : World} {act : Act} (hstep : w.Step score act w') {pid : Nat}
    {p : AttachProc} (hp : w'.attaches pid = some p) :
    (∃ old, w.attaches pid = some old ∧ old.SameWork p ∧ (act.caller = some pid → w' = w)) ∨
    p.pc.active = false ∨
    ∃ a old r, act = .run pid a ∧ w.attaches pid = some old ∧
      AttachStep score w.kernel w.files pid old a r ∧ w' = w.setAttach pid r.1 r.2 ∧ p = r.2 := by
  have hsame : w.attaches pid = some p → (act.caller = some pid → w' = w) →
      ∃ old, w.attaches pid = some old ∧ old.SameWork p ∧ (act.caller = some pid → w' = w) :=
    fun h hact => ⟨p, h, .refl p, hact⟩
  cases hstep with
  | stays => exact Or.inl (hsame hp fun _ => rfl)
  | removesIf ifindex len overrun =>
      obtain ⟨old, hold, rfl⟩ := World.broadcast_attaches hp
      exact Or.inl ⟨old, hold, old.deliver_sameWork _ _, nofun⟩
  | notices msgs overrun =>
      obtain ⟨old, hold, rfl⟩ := World.broadcast_attaches hp
      exact Or.inl ⟨old, hold, old.deliver_sameWork _ _, nofun⟩
  | signals other sig old hold =>
      by_cases hother : pid = other
      · subst hother
        rw [World.setAttach_self] at hp
        rw [← Option.some.inj hp]
        exact (old.signal_work w.files sig).imp (fun h => ⟨old, hold, h, nofun⟩) Or.inl
      · exact Or.inl (hsame ((World.setAttach_other w _ _ hother).symm.trans hp) nofun)
  | startsAttach other environ confPath =>
      by_cases hother : pid = other
      · subst hother
        rw [← Option.some.inj ((Function.update_self pid _ w.attaches).symm.trans hp)]
        exact Or.inr (Or.inl rfl)
      · exact Or.inl (hsame ((Function.update_of_ne hother _ w.attaches).symm.trans hp) nofun)
  | runsAttach other a old r hold hcall =>
      by_cases hother : pid = other
      · subst hother
        rw [World.setAttach_self] at hp
        exact Or.inr (Or.inr ⟨a, old, r, rfl, hold, hcall, rfl, (Option.some.inj hp).symm⟩)
      · refine Or.inl (hsame ((World.setAttach_other w _ _ hother).symm.trans hp) ?_)
        intro hact
        exact absurd (Option.some.inj hact).symm hother
  | runsUnpin other a u r hnone hu hcall =>
      refine Or.inl (hsame hp fun hact => ?_)
      rw [← Option.some.inj hact, hnone] at hp
      cases hp
  | _ => exact Or.inl (hsame hp nofun)

theorem World.Step.pins {w w' : World} {act : Act} (hstep : w.Step score act w') (dir : CBuf)
    (name : PinName) :
    w'.kernel.pins dir name = w.kernel.pins dir name ∨
      (∃ pid p, act.caller = some pid ∧ w.attaches pid = some p ∧ dir = p.cfg.pinDir ∧
        p.pc.opened = true ∧
        (w'.kernel.pins dir name = none ∨ w'.kernel.pins dir name = some p.own)) ∨
      ∃ pid u, w.unpins pid = some u ∧ dir = u.cfg.pinDir ∧ u.pc.removes = true ∧
        w'.kernel.pins dir name = none := by
  cases hstep with
  | signals pid sig p hp =>
      rw [World.setAttach_pins]
      exact Or.inl rfl
  | runsAttach pid a p r hp hcall =>
      rw [World.setAttach_pins]
      refine (hcall.pins dir name).imp id fun h => Or.inl ?_
      exact ⟨pid, p, rfl, hp, h.1, h.2.1, h.2.2⟩
  | runsUnpin pid a u r hnone hu hcall =>
      refine (hcall.pins dir name).imp id fun h => Or.inr ?_
      exact ⟨pid, u, hu, h.1, h.2.1, h.2.2⟩
  | _ => exact Or.inl rfl

theorem AttachProc.Refers.sameWork {q : AttachProc} (hp : p.Refers k) (hsame : p.SameWork q) :
    q.Refers k := by
  constructor
  · rw [hsame.pc, hsame.own, hsame.cfg]
    exact hp.own
  · rw [hsame.pc, hsame.handles, hsame.cfg]
    exact hp.handles

theorem AttachPc.opened_of_idle {pc : AttachPc} (h : pc.active = false) : pc.opened = false := by
  cases pc <;> simp_all [AttachPc.opened, AttachPc.active]

theorem World.Boot.refers {w : World} (hboot : w.Boot) : Pins w where
  pinned dir name load hload := by
    rw [hboot.pins dir name] at hload
    cases hload
  refers pid p hp := by
    rw [hboot.attaches pid] at hp
    cases hp

theorem World.Step.refers {w w' : World} {act : Act} (hstep : w.Step score act w')
    (hw : Pins w) : Pins w' := by
  have hle := hstep.extends
  constructor
  · intro dir name load hload
    rcases hstep.pins dir name with hsame | ⟨pid, p, -, hp, rfl, hopened, hnone | hown⟩ |
      ⟨pid, u, -, -, -, hnone⟩
    · rw [hsame] at hload
      exact (hw.pinned dir name load hload).mono hle
    · rw [hnone] at hload
      cases hload
    · rw [hown] at hload
      obtain rfl := Option.some.inj hload
      exact ((hw.refers pid p hp).own hopened).mono hle
    · rw [hnone] at hload
      cases hload
  · intro pid p hp
    rcases hstep.proc hp with ⟨old, hold, hsame, -⟩ | hidle | ⟨a, old, r, -, hold, hcall, rfl, rfl⟩
    · exact ((hw.refers pid old hold).mono hle).sameWork hsame
    · exact .idle (AttachPc.opened_of_idle hidle)
    · have hrefers := hcall.refers (hw.refers pid old hold) fun name load => hw.pinned _ name load
      exact hrefers.mono (World.setAttach_extends (.refl _))

/-! ## One loader to a directory -/

/-- The process's own pins, as far as it has come. -/
structure AttachProc.Ours (k : Kernel) (p : AttachProc) : Prop where
  maps : p.pc.opened = true → ∀ m, m ∉ p.pc.awaits →
    k.pins p.cfg.pinDir (.map m) = some (p.handles m)
  version : p.pc.versioned = true → (k.loaded p.own).object.build ≠ none →
    k.pins p.cfg.pinDir .version = some p.own
  prog : p.pc.programmed = true → k.pins p.cfg.pinDir .prog = some p.own

theorem AttachProc.Ours.idle (hp : p.pc.opened = false) : p.Ours k := by
  refine ⟨fun h => absurd h (by simp [hp]), fun h => ?_, fun h => ?_⟩
  · exact absurd (AttachPc.opened_of_versioned h) (by simp [hp])
  · exact absurd (AttachPc.opened_of_versioned (AttachPc.versioned_of_programmed h)) (by simp [hp])

theorem AttachProc.Ours.sameWork {q : AttachProc} (hp : p.Ours k) (hsame : p.SameWork q) :
    q.Ours k := by
  constructor
  · rw [hsame.pc, hsame.handles, hsame.cfg]
    exact hp.maps
  · rw [hsame.pc, hsame.own, hsame.cfg]
    exact hp.version
  · rw [hsame.pc, hsame.own, hsame.cfg]
    exact hp.prog

theorem AttachProc.Ours.frame {k' : Kernel} (hp : p.Ours k) (hrefers : p.Refers k)
    (hle : k.Extends k') (hpins : ∀ name, k'.pins p.cfg.pinDir name = k.pins p.cfg.pinDir name) :
    p.Ours k' := by
  constructor
  · intro h m hm
    rw [hpins]
    exact hp.maps h m hm
  · intro h hbuild
    rw [hle.loaded _ (hrefers.own (AttachPc.opened_of_versioned h)).1] at hbuild
    rw [hpins]
    exact hp.version h hbuild
  · intro h
    rw [hpins]
    exact hp.prog h

theorem AttachProc.Ours.moved {k' : Kernel} {q : AttachProc} (hp : p.Ours k)
    (hpins : k'.pins = k.pins) (hloaded : k'.loaded = k.loaded)
    (hdir : q.cfg.pinDir = p.cfg.pinDir) (hown : q.own = p.own) (hhandles : q.handles = p.handles)
    (hpc : p.pc.opened = true ∧ p.pc.awaits = q.pc.awaits)
    (hversion : p.pc.versioned = true ∨ q.pc.versioned = false ∨
      (k.loaded p.own).object.build = none)
    (hprog : p.pc.programmed = true ∨ q.pc.programmed = false) : q.Ours k' := by
  constructor
  · intro _ m hm
    rw [hpins, hdir, hhandles]
    exact hp.maps hpc.1 m (hpc.2 ▸ hm)
  · intro hq hbuild
    rw [hloaded, hown] at hbuild
    rw [hpins, hdir, hown]
    rcases hversion with h | h | h
    · exact hp.version h hbuild
    · exact absurd hq (by simp [h])
    · exact absurd h hbuild
  · intro hq
    rw [hpins, hdir, hown]
    rcases hprog with h | h
    · exact hp.prog h
    · exact absurd hq (by simp [h])

theorem AttachProc.Ours.mapped {k' : Kernel} (hp : p.Ours k) {m : ObjMap} {rest : List ObjMap}
    (hpc : p.pc = .loading (m :: rest)) {load : Nat}
    (hpin : k'.pins p.cfg.pinDir (.map m) = some load)
    (hother : ∀ other, other ≠ m →
      k'.pins p.cfg.pinDir (.map other) = k.pins p.cfg.pinDir (.map other)) :
    AttachProc.Ours k'
      { p with pc := .loading rest, handles := Function.update p.handles m load } := by
  have hopened : p.pc.opened = true := by rw [hpc]; rfl
  refine ⟨?_, nofun, nofun⟩
  intro _ other hrest
  by_cases hsame : other = m
  · subst hsame
    simp only [Function.update_self]
    exact hpin
  · simp only [Function.update_of_ne hsame]
    rw [hother other hsame]
    refine hp.maps hopened other ?_
    rw [hpc]
    simp only [AttachPc.awaits] at hrest ⊢
    simp [hsame, hrest]

theorem AttachStep.ours (hcall : AttachStep score k files pid p a r) (hp : p.Ours k) :
    r.2.Ours r.1 := by
  cases hcall with
  | stays => exact hp
  | exits code => exact .idle rfl
  | configures cfg hpc => exact .idle rfl
  | prepares pc hpc => exact .idle (preparation_opened hpc)
  | opens object hpc =>
      exact ⟨fun _ m hm => absurd (mem_objMaps m) hm, nofun, nofun⟩
  | reuses m rest load hpc hpin => exact hp.mapped hpc hpin fun _ _ => rfl
  | creates m rest hpc =>
      refine hp.mapped hpc (k.pin_pins ..) fun other hother => ?_
      exact k.pin_pins_name _ _ (by simpa using hother)
  | mapped hpc =>
      refine hp.moved rfl rfl rfl rfl rfl ?_ (Or.inr (Or.inl rfl)) (Or.inr rfl)
      rw [hpc]
      exact ⟨rfl, rfl⟩
  | unversioned hpc hbuild =>
      refine hp.moved rfl rfl rfl rfl rfl ?_ (Or.inr (Or.inr hbuild)) (Or.inr rfl)
      rw [hpc]
      exact ⟨rfl, rfl⟩
  | unpinsVersion hpc =>
      refine ⟨fun _ m hm => ?_, nofun, nofun⟩
      rw [k.pin_pins_name _ _ (by simp)]
      exact hp.maps (by rw [hpc]; rfl) m (by rw [hpc]; exact hm)
  | pinsVersion hpc =>
      refine ⟨fun _ m hm => ?_, fun _ _ => k.pin_pins .., nofun⟩
      rw [k.pin_pins_name _ _ (by simp)]
      exact hp.maps (by rw [hpc]; rfl) m (by rw [hpc]; exact hm)
  | fileless hpc =>
      exact hp.moved rfl rfl rfl rfl rfl (by rw [hpc]; exact ⟨rfl, rfl⟩)
        (Or.inl (by rw [hpc]; rfl)) (Or.inr rfl)
  | reconciled conf file hpc =>
      exact hp.moved rfl rfl rfl rfl rfl (by rw [hpc]; exact ⟨rfl, rfl⟩)
        (Or.inl (by rw [hpc]; rfl)) (Or.inr rfl)
  | refuses conf => exact .idle rfl
  | unpinsProg hpc =>
      refine ⟨fun _ m hm => ?_, fun _ hbuild => ?_, nofun⟩
      · rw [k.pin_pins_name _ _ (by simp)]
        exact hp.maps (by rw [hpc]; rfl) m (by rw [hpc]; exact hm)
      · rw [k.pin_pins_name _ _ (by simp)]
        exact hp.version (by rw [hpc]; rfl) hbuild
  | pinsProg hpc =>
      refine ⟨fun _ m hm => ?_, fun _ hbuild => ?_, fun _ => k.pin_pins ..⟩
      · rw [k.pin_pins_name _ _ (by simp)]
        exact hp.maps (by rw [hpc]; rfl) m (by rw [hpc]; exact hm)
      · rw [k.pin_pins_name _ _ (by simp)]
        exact hp.version (by rw [hpc]; rfl) hbuild
  | attaches hpc =>
      exact hp.moved rfl rfl rfl rfl rfl (by rw [hpc]; exact ⟨rfl, rfl⟩)
        (Or.inl (by rw [hpc]; rfl)) (Or.inl (by rw [hpc]; rfl))
  | overruns hpc =>
      exact hp.moved rfl rfl rfl rfl rfl (by rw [hpc]; exact ⟨rfl, rfl⟩)
        (Or.inl (by rw [hpc]; rfl)) (Or.inl (by rw [hpc]; rfl))
  | hears hpc =>
      exact hp.moved rfl rfl rfl rfl rfl (by rw [hpc]; exact ⟨rfl, rfl⟩)
        (Or.inl (by rw [hpc]; rfl)) (Or.inl (by rw [hpc]; rfl))
  | hup hpc =>
      exact hp.moved rfl rfl rfl rfl rfl (by rw [hpc]; exact ⟨rfl, rfl⟩)
        (Or.inl (by rw [hpc]; rfl)) (Or.inl (by rw [hpc]; rfl))
  | ignores hpc =>
      exact hp.moved rfl rfl rfl rfl rfl (by rw [hpc]; exact ⟨rfl, rfl⟩)
        (Or.inl (by rw [hpc]; rfl)) (Or.inl (by rw [hpc]; rfl))
  | rejects path hpc =>
      exact hp.moved rfl rfl rfl rfl rfl (by rw [hpc]; exact ⟨rfl, rfl⟩)
        (Or.inl (by rw [hpc]; rfl)) (Or.inl (by rw [hpc]; rfl))
  | reloads path prev next file diag hpc =>
      exact hp.moved rfl rfl rfl rfl rfl (by rw [hpc]; exact ⟨rfl, rfl⟩)
        (Or.inl (by rw [hpc]; rfl)) (Or.inl (by rw [hpc]; rfl))
  | breaks path prev next diag hpc =>
      exact hp.moved rfl rfl rfl rfl rfl (by rw [hpc]; exact ⟨rfl, rfl⟩)
        (Or.inl (by rw [hpc]; rfl)) (Or.inl (by rw [hpc]; rfl))

/-- A directory has one loader at a time. -/
def World.Single (w : World) : Prop :=
  ∀ pid p other q, w.attaches pid = some p → w.attaches other = some q →
    p.pc.active = true → q.pc.active = true → p.cfg.pinDir = q.cfg.pinDir → pid = other

/-- Besides, `--unpin` is run in it only while that loader serves, for the same interface. -/
structure World.Exclusive (w : World) : Prop where
  attaches : w.Single
  unpins : ∀ pid p other u, w.attaches pid = some p → w.unpins other = some u →
    p.pc.active = true → u.pc.active = true → p.cfg.pinDir = u.cfg.pinDir →
      p.pc.holds = true ∧ p.cfg.ifindex = u.cfg.ifindex

/-- The process is on its way to its link or has it. -/
structure World.Standing (w : World) (pid : Nat) (p : AttachProc) : Prop where
  active : p.pc.active = true
  link : p.pc.holds = true → ∃ link ∈ w.kernel.links, p.Holds pid link

/-- A process that stands has its pins, and no `--unpin` removes them. -/
structure Owned (w : World) : Prop where
  ours : ∀ pid p, w.attaches pid = some p → w.Standing pid p → p.Ours w.kernel
  refused : ∀ pid p other u, w.attaches pid = some p → w.Standing pid p →
    w.unpins other = some u → u.pc.removes = true → u.cfg.pinDir ≠ p.cfg.pinDir

theorem AttachPc.ended_of_active {pc : AttachPc} (h : pc.active = true) : pc.ended ≠ true := by
  cases pc <;> simp_all [AttachPc.active, AttachPc.ended]

theorem UnpinPc.active_of_removes {pc : UnpinPc} (h : pc.removes = true) : pc.active = true := by
  cases pc <;> simp_all [UnpinPc.active, UnpinPc.removes]

theorem AttachProc.Holds.ofSameWork {q : AttachProc} {link : XdpLink}
    (hlink : q.Holds pid link) (hsame : p.SameWork q) : p.Holds pid link where
  holds := by rw [← hsame.pc]; exact hlink.holds
  ifindex := by rw [← hsame.cfg]; exact hlink.ifindex
  prog := by rw [← hsame.own]; exact hlink.prog
  owner := hlink.owner

theorem World.Step.mem_links {w w' : World} {act : Act} (hstep : w.Step score act w')
    {link : XdpLink} (hlink : link ∈ w'.kernel.links) {pid : Nat}
    (howner : link.owner = some pid) :
    link ∈ w.kernel.links ∨
      ∃ p r, act.caller = some pid ∧ w.attaches pid = some p ∧ LinkMade w.kernel pid p r ∧
        w' = w.setAttach pid r.1 r.2 := by
  cases hstep with
  | removesIf ifindex len overrun => exact Or.inl (List.mem_filter.mp hlink).1
  | attachesForeign ifindex =>
      rcases List.mem_append.mp hlink with hmem | hmem
      · exact Or.inl hmem
      · obtain rfl := List.mem_singleton.mp hmem
        cases howner
  | detachesForeign id => exact Or.inl (List.mem_filter.mp hlink).1
  | signals other sig p hp => exact Or.inl (World.mem_setAttach_links hlink).1
  | runsAttach other a p r hp hcall =>
      have hmem := (World.mem_setAttach_links hlink).1
      rcases hcall.links with hkept | hmade
      · rw [hkept.links] at hmem
        exact Or.inl hmem
      · rw [hmade.links, List.mem_append, List.mem_singleton] at hmem
        rcases hmem with hmem | rfl
        · exact Or.inl hmem
        · obtain rfl : other = pid := Option.some.inj howner
          exact Or.inr ⟨p, r, rfl, hp, hmade, rfl⟩
  | runsUnpin other a u r hnone hu hcall =>
      rw [hcall.links] at hlink
      exact Or.inl hlink
  | _ => exact Or.inl hlink

theorem AttachStep.pinDir (hcall : AttachStep score k files pid p a r) :
    r.2.cfg.pinDir = p.cfg.pinDir ∨ r.2.pc = .configured ∧ r.1 = k := by
  cases hcall with
  | configures cfg => exact Or.inr ⟨rfl, rfl⟩
  | _ => exact Or.inl rfl

theorem AttachStep.active (hcall : AttachStep score k files pid p a r)
    (hr : r.2.pc.active = true) : p.pc.active = true ∨ r.2.pc = .configured ∧ r.1 = k := by
  cases hcall with
  | stays | overruns | hears => exact Or.inl hr
  | exits | refuses => cases hr
  | configures => exact Or.inr ⟨rfl, rfl⟩
  | prepares pc hpc => exact Or.inl (preparation_active hpc).1
  | mapped hpc | unversioned hpc | unpinsVersion hpc | pinsVersion hpc | fileless hpc
  | unpinsProg hpc | pinsProg hpc | attaches hpc | hup hpc | ignores hpc =>
      exact Or.inl (by rw [hpc]; rfl)
  | opens _ hpc | rejects _ hpc => exact Or.inl (by rw [hpc]; rfl)
  | creates _ _ hpc | reconciled _ _ hpc => exact Or.inl (by rw [hpc]; rfl)
  | reuses _ _ _ hpc => exact Or.inl (by rw [hpc]; rfl)
  | breaks _ _ _ _ hpc => exact Or.inl (by rw [hpc]; rfl)
  | reloads _ _ _ _ _ hpc => exact Or.inl (by rw [hpc]; rfl)

/-- A process that stands after a step was standing before, in the same directory, unless it
has only just read its configuration. -/
theorem World.Step.standing {w w' : World} {act : Act} (hstep : w.Step score act w') {pid : Nat}
    {p : AttachProc} (hp : w'.attaches pid = some p) (hstands : w'.Standing pid p) :
    (p.pc = .configured ∧ w'.kernel = w.kernel) ∨
    ∃ old, w.attaches pid = some old ∧ w.Standing pid old ∧ old.cfg.pinDir = p.cfg.pinDir ∧
      (old.SameWork p ∧ (act.caller = some pid → w' = w) ∨
        ∃ a r, act = .run pid a ∧ AttachStep score w.kernel w.files pid old a r ∧
          w'.kernel = r.1 ∧ p = r.2) := by
  rcases hstep.proc hp with
    ⟨old, hold, hsame, hact⟩ | hidle | ⟨a, old, r, hact, hold, hcall, hw, rfl⟩
  · refine Or.inr ⟨old, hold, ⟨?_, ?_⟩, by rw [hsame.cfg], Or.inl ⟨hsame, hact⟩⟩
    · rw [← hsame.pc]
      exact hstands.active
    · intro hholds
      obtain ⟨link, hlink, hplink⟩ := hstands.link (by rw [hsame.pc]; exact hholds)
      have holdlink := hplink.ofSameWork hsame
      refine ⟨link, ?_, holdlink⟩
      rcases hstep.mem_links hlink hplink.owner with hmem | ⟨q, r, hcaller, -⟩
      · exact hmem
      · rw [hact hcaller] at hlink
        exact hlink
  · rw [hstands.active] at hidle
    cases hidle
  · have halive := AttachPc.ended_of_active hstands.active
    have hkernel : w'.kernel = r.1 := by
      rw [hw]
      simp only [World.setAttach, if_neg halive]
    rcases hcall.active hstands.active with hactive | ⟨hpc, hk⟩
    · rcases hcall.pinDir with hdir | ⟨hpc, hk⟩
      · refine Or.inr ⟨old, hold, ⟨hactive, fun hholds => ?_⟩, hdir.symm,
          Or.inr ⟨a, r, hact, hcall, hkernel, rfl⟩⟩
        rcases hcall.links with hkept | hmade
        · have hr := (hkept.holds.resolve_left halive).trans hholds
          obtain ⟨link, hlink, hplink⟩ := hstands.link hr
          rw [hkernel, hkept.links] at hlink
          exact ⟨link, hlink, hholds, hplink.ifindex.trans (hkept.ifindex hholds),
            hplink.prog.trans (congrArg some (hkept.own hholds)), hplink.owner⟩
        · rw [hmade.pc] at hholds
          cases hholds
      · exact Or.inl ⟨hpc, hkernel.trans hk⟩
    · exact Or.inl ⟨hpc, hkernel.trans hk⟩

theorem World.Step.ours {w w' : World} {act : Act} (hstep : w.Step score act w') (hpins : Pins w)
    (hone : w.Exclusive) (hw : Owned w) {pid : Nat} {p : AttachProc}
    (hp : w'.attaches pid = some p) (hstands : w'.Standing pid p) : p.Ours w'.kernel := by
  rcases hstep.standing hp hstands with ⟨hpc, -⟩ | ⟨old, hold, holdstands, hdir, hmove⟩
  · exact .idle (by rw [hpc]; rfl)
  have hours := hw.ours pid old hold holdstands
  rcases hmove with ⟨hsame, hact⟩ | ⟨a, r, -, hcall, hkernel, rfl⟩
  · refine .sameWork (hours.frame (hpins.refers pid old hold) hstep.extends fun name => ?_) hsame
    rcases hstep.pins old.cfg.pinDir name with hkept | ⟨other, q, hcaller, hq, hqdir, hopened, -⟩ |
      ⟨other, u, hu, hudir, hremoves, -⟩
    · exact hkept
    · have hother := hone.attaches pid old other q hold hq holdstands.active
        (AttachPc.active_of_opened hopened) hqdir
      subst hother
      rw [hact hcaller]
    · exact absurd hudir.symm (hw.refused pid old other u hold holdstands hu hremoves)
  · rw [hkernel]
    exact hcall.ours hours

def World.PassesProbe (w w' : World) (pid : Nat) (u : UnpinProc) (act : Act) : Prop :=
  ∃ a code, act = .run pid a ∧ w'.kernel = w.kernel ∧ w'.attaches = w.attaches ∧
    attachProbe a.probe w.kernel u.cfg.pinDir u.cfg.ifindex = .ok code ∧ code ≠ exitAttached

theorem World.Step.unpin {w w' : World} {act : Act} (hstep : w.Step score act w') {pid : Nat}
    {u : UnpinProc} (hu : w'.unpins pid = some u) (hremoves : u.pc.removes = true) :
    ∃ old, w.unpins pid = some old ∧ old.cfg = u.cfg ∧ old.pc.active = true ∧
      (old.pc.removes = true ∨ w.PassesProbe w' pid u act) := by
  have hactive := UnpinPc.active_of_removes hremoves
  have hsame : w.unpins pid = some u → ∃ old, w.unpins pid = some old ∧ old.cfg = u.cfg ∧
      old.pc.active = true ∧ (old.pc.removes = true ∨ w.PassesProbe w' pid u act) :=
    fun h => ⟨u, h, rfl, hactive, Or.inl hremoves⟩
  cases hstep with
  | stopsUnpin other sig old hold =>
      by_cases hother : pid = other
      · subst hother
        rw [← Option.some.inj ((Function.update_self pid _ w.unpins).symm.trans hu)] at hremoves
        cases hremoves
      · exact hsame ((Function.update_of_ne hother _ w.unpins).symm.trans hu)
  | startsUnpin other environ confPath =>
      by_cases hother : pid = other
      · subst hother
        rw [← Option.some.inj ((Function.update_self pid _ w.unpins).symm.trans hu)] at hremoves
        cases hremoves
      · exact hsame ((Function.update_of_ne hother _ w.unpins).symm.trans hu)
  | runsUnpin other a old r hnone hold hcall =>
      by_cases hother : pid = other
      · subst hother
        obtain rfl := Option.some.inj ((Function.update_self pid _ w.unpins).symm.trans hu)
        cases hcall with
        | stays => exact ⟨_, hold, rfl, hactive, Or.inl hremoves⟩
        | exits => cases hremoves
        | configures => cases hremoves
        | passes hpc hprobe =>
            obtain ⟨code, hcode, hne⟩ := hprobe
            exact ⟨old, hold, rfl, by rw [hpc]; rfl, Or.inr ⟨a, code, rfl, rfl, rfl, hcode, hne⟩⟩
        | unpinsProg hpc | lists hpc =>
            exact ⟨old, hold, rfl, by rw [hpc]; rfl, Or.inl (by rw [hpc]; rfl)⟩
        | clears name rest hpc | skips name rest hpc =>
            exact ⟨old, hold, rfl, by rw [hpc]; rfl, Or.inl (by rw [hpc]; rfl)⟩
      · exact hsame ((Function.update_of_ne hother _ w.unpins).symm.trans hu)
  | _ => exact hsame hu

def Act.Sees : Act → Prop
  | .run _ a => a.probe.Sees
  | _ => True

theorem World.Step.refused {w w' : World} {act : Act} (hstep : w.Step score act w')
    (hsees : act.Sees) (hlinks : Links w) (hone : w.Exclusive) (hone' : w'.Exclusive)
    (hw : Owned w) {pid : Nat} {p : AttachProc} (hp : w'.attaches pid = some p)
    (hstands : w'.Standing pid p) {other : Nat} {u : UnpinProc}
    (hu : w'.unpins other = some u) (hremoves : u.pc.removes = true) :
    u.cfg.pinDir ≠ p.cfg.pinDir := by
  intro hsame
  -- The directory is shared, so the loader serves; it did so before the step.
  obtain ⟨hholds, hif⟩ := hone'.unpins pid p other u hp hu hstands.active
    (UnpinPc.active_of_removes hremoves) hsame.symm
  obtain ⟨old, hold, hcfg, hactive, hpassed⟩ := hstep.unpin hu hremoves
  rcases hstep.standing hp hstands with ⟨hpc, -⟩ | ⟨before, hbefore, hbstands, hdir, hmove⟩
  · rw [hpc] at hholds
    cases hholds
  have holddir : before.cfg.pinDir = old.cfg.pinDir := by rw [hdir, hcfg, hsame]
  have hbholds := (hone.unpins pid before other old hbefore hold hbstands.active hactive holddir).1
  rcases hpassed with holdremoves | ⟨a, code, rfl, hkernel, hattaches, hprobe, hcode⟩
  · exact hw.refused pid before other old hbefore hbstands hold holdremoves holddir.symm
  · -- The probe saw the link and the program pin of the loader.
    refine hcode (hlinks.attachProbe_sees hsees ⟨pid, p, ?_, hif, ?_, ?_⟩ hprobe)
    · rw [← hattaches]
      exact hp
    · rw [hattaches] at hp
      obtain rfl : before = p := Option.some.inj (hbefore.symm.trans hp)
      rw [hsame]
      exact (hw.ours pid before hbefore hbstands).prog (AttachPc.programmed_of_holds hbholds)
    · rw [← hkernel]
      exact hstands.link hholds

theorem World.Step.owned {w w' : World} {act : Act} (hstep : w.Step score act w')
    (hsees : act.Sees) (hlinks : Links w) (hpins : Pins w) (hone : w.Exclusive)
    (hone' : w'.Exclusive) (hw : Owned w) : Owned w' where
  ours _ _ hp hstands := hstep.ours hpins hone hw hp hstands
  refused _ _ _ _ hp hstands hu hremoves :=
    hstep.refused hsees hlinks hone hone' hw hp hstands hu hremoves

theorem World.Boot.owned {w : World} (hboot : w.Boot) : Owned w where
  ours pid p hp := by
    rw [hboot.attaches pid] at hp
    cases hp
  refused pid p other u hp := by
    rw [hboot.attaches pid] at hp
    cases hp

theorem World.Boot.exclusive {w : World} (hboot : w.Boot) : w.Exclusive where
  attaches pid p other q hp := by
    rw [hboot.attaches pid] at hp
    cases hp
  unpins pid p other u hp := by
    rw [hboot.attaches pid] at hp
    cases hp

structure World.Apart (w : World) : Prop where
  links : Links w
  pins : Pins w
  exclusive : w.Exclusive
  owned : Owned w

theorem World.Boot.apart {w : World} (hboot : w.Boot) {acts : List Act}
    (hrun : Along (World.step score) (fun w act => (w.step score act).Exclusive ∧ act.Sees)
      w acts) :
    (w.run score acts).Apart := by
  refine hrun.invariant (I := World.Apart)
    ⟨hboot.links, hboot.refers, hboot.exclusive, hboot.owned⟩ fun w act hw ⟨hone, hsees⟩ => ?_
  have hstep := w.step_step score act
  exact ⟨hstep.links hw.links, hstep.refers hw.pins, hone,
    hstep.owned hsees hw.links hw.pins hw.exclusive hone hw.owned⟩

def Act.Starts (pid : Nat) : Act → Prop
  | .attach other _ _ => other = pid
  | .unpin _ _ _ => False
  | _ => True

structure World.Lone (w : World) (pid : Nat) : Prop where
  attaches : ∀ other, other ≠ pid → w.attaches other = none
  unpins : ∀ other, w.unpins other = none

theorem World.Lone.exclusive {w : World} {pid : Nat} (hw : w.Lone pid) : w.Exclusive where
  attaches one p other q hp hq _ _ _ := by
    have hsame : ∀ {id : Nat} {r : AttachProc}, w.attaches id = some r → id = pid := by
      intro id r hr
      by_contra hne
      rw [hw.attaches id hne] at hr
      cases hr
    rw [hsame hp, hsame hq]
  unpins one p other u hp hu := by
    rw [hw.unpins other] at hu
    cases hu

theorem World.Step.lone {w w' : World} {act : Act} {pid : Nat} (hstep : w.Step score act w')
    (hact : act.Starts pid) (hw : w.Lone pid) : w'.Lone pid := by
  have hset : ∀ (id : Nat) (p : AttachProc) (k : Kernel) (q : AttachProc),
      w.attaches id = some p → (w.setAttach id k q).Lone pid := by
    intro id p k q hp
    refine ⟨fun other hne => ?_, hw.unpins⟩
    have hother : other ≠ id := by
      rintro rfl
      rw [hw.attaches other hne] at hp
      cases hp
    exact (World.setAttach_other w k q hother).trans (hw.attaches other hne)
  have hnounpin : ∀ {id : Nat} {u : UnpinProc}, w.unpins id ≠ some u := by
    intro id u hu
    rw [hw.unpins id] at hu
    cases hu
  cases hstep with
  | removesIf | notices =>
      refine ⟨fun other hne => ?_, hw.unpins⟩
      simp only [World.broadcast, hw.attaches other hne, Option.map_none]
  | signals id sig p hp => exact hset id p _ _ hp
  | stopsUnpin id sig u hu => exact absurd hu hnounpin
  | startsAttach id environ confPath =>
      obtain rfl : id = pid := hact
      refine ⟨fun other hne => ?_, hw.unpins⟩
      exact (Function.update_of_ne hne _ w.attaches).trans (hw.attaches other hne)
  | startsUnpin => exact hact.elim
  | runsAttach id a p r hp => exact hset id p _ _ hp
  | runsUnpin id a u r _ hu => exact absurd hu hnounpin
  | _ => exact ⟨hw.attaches, hw.unpins⟩

theorem World.Lone.along {w : World} {pid : Nat} (hw : w.Lone pid) {acts : List Act}
    (hacts : ∀ act ∈ acts, act.Starts pid) :
    Along (World.step score) (fun w act => (w.step score act).Exclusive) w acts := by
  induction acts generalizing w with
  | nil => trivial
  | cons act acts ih =>
      have hnext := (w.step_step score act).lone (hacts act List.mem_cons_self) hw
      exact ⟨hnext.exclusive, ih hnext fun other hother =>
        hacts other (List.mem_cons_of_mem act hother)⟩

end

namespace Sample

theorem bootWorld_lone : bootWorld.Lone 0 := ⟨fun _ _ => rfl, fun _ => rfl⟩

theorem attachFor_starts (pid n : Nat) : ∀ act ∈ attachFor pid n, act.Starts pid := by
  intro act hact
  rcases List.mem_cons.mp hact with rfl | hact
  · rfl
  · rw [List.eq_of_mem_replicate hact]
    trivial

theorem calmProbe_calm : calmProbe.Calm := ⟨⟨rfl, fun _ => rfl⟩, fun _ => rfl⟩

theorem attachFor_sees (pid n : Nat) : ∀ act ∈ attachFor pid n, act.Sees := by
  intro act hact
  rcases List.mem_cons.mp hact with rfl | hact
  · trivial
  · rw [List.eq_of_mem_replicate hact]
    exact calmProbe_calm.toSees

theorem attachFor_holds : ∃ p, (bootWorld.run score (attachFor 0 27)).attaches 0 = some p ∧
    (⟨1, 2, some 0, some 0⟩ : XdpLink) ∈ (bootWorld.run score (attachFor 0 27)).kernel.links ∧
    p.Holds 0 ⟨1, 2, some 0, some 0⟩ ∧ p.cfg.pinDir = marlinDefaultPinDir := by
  have hend : ((bootWorld.run score (attachFor 0 27)).attaches 0).map
      (fun p => (p.pc, p.own, p.cfg.ifindex, p.cfg.pinDir)) =
        some (.serving, 0, 2, marlinDefaultPinDir) ∧
      (bootWorld.run score (attachFor 0 27)).kernel.links = [⟨1, 2, some 0, some 0⟩] := by
    decide +kernel
  obtain ⟨p, hp, hstate⟩ := Option.map_eq_some_iff.mp hend.1
  simp only [Prod.mk.injEq] at hstate
  obtain ⟨hpc, hown, hif, hdir⟩ := hstate
  refine ⟨p, hp, ?_, ⟨by rw [hpc]; rfl, hif.symm, by rw [hown], rfl⟩, hdir⟩
  rw [hend.2]
  exact List.mem_singleton.mpr rfl

end Sample

section

variable {S : Type} [LinearOrder S] {score : UInt64 → Nat → S} {k : Kernel} {files : Files}
  {pid : Nat} {p : AttachProc} {a : Answers} {r : Kernel × AttachProc}

/-! ## Two loaders in one directory -/

def Distinct (w : World) : Prop :=
  ∀ pid p other q, w.attaches pid = some p → w.attaches other = some q → p.pc.opened = true →
    q.pc.opened = true → p.own = q.own → pid = other

theorem AttachStep.own (hcall : AttachStep score k files pid p a r)
    (hr : r.2.pc.opened = true) : p.pc.opened = true ∧ r.2.own = p.own ∨ r.2.own = k.loads := by
  cases hcall with
  | stays => exact Or.inl ⟨hr, rfl⟩
  | exits | refuses | configures => cases hr
  | prepares pc hpc => exact absurd hr (by simp [preparation_opened hpc])
  | opens => exact Or.inr rfl
  | reuses _ _ _ hpc => exact Or.inl ⟨by rw [hpc]; rfl, rfl⟩
  | creates _ _ hpc | reconciled _ _ hpc => exact Or.inl ⟨by rw [hpc]; rfl, rfl⟩
  | mapped hpc | unversioned hpc | unpinsVersion hpc | pinsVersion hpc | fileless hpc
  | unpinsProg hpc | pinsProg hpc | attaches hpc | overruns hpc | hears hpc | hup hpc
  | ignores hpc => exact Or.inl ⟨by rw [hpc]; rfl, rfl⟩
  | rejects _ hpc => exact Or.inl ⟨by rw [hpc]; rfl, rfl⟩
  | breaks _ _ _ _ hpc => exact Or.inl ⟨by rw [hpc]; rfl, rfl⟩
  | reloads _ _ _ _ _ hpc => exact Or.inl ⟨by rw [hpc]; rfl, rfl⟩

theorem World.Step.own {w w' : World} {act : Act} (hstep : w.Step score act w') {pid : Nat}
    {p : AttachProc} (hp : w'.attaches pid = some p) (hopened : p.pc.opened = true) :
    (∃ old, w.attaches pid = some old ∧ old.pc.opened = true ∧ p.own = old.own) ∨
      p.own = w.kernel.loads ∧ act.caller = some pid := by
  rcases hstep.proc hp with ⟨old, hold, hsame, -⟩ | hidle | ⟨a, old, r, hact, hold, hcall, -, rfl⟩
  · exact Or.inl ⟨old, hold, by rw [← hsame.pc]; exact hopened, hsame.own⟩
  · exact absurd hopened (by simp [AttachPc.opened_of_idle hidle])
  · rcases hcall.own hopened with ⟨holdopened, hown⟩ | hown
    · exact Or.inl ⟨old, hold, holdopened, hown⟩
    · exact Or.inr ⟨hown, by rw [hact]; rfl⟩

theorem World.Step.distinct {w w' : World} {act : Act} (hstep : w.Step score act w')
    (hpins : Pins w) (hw : Distinct w) : Distinct w' := by
  intro pid p other q hp hq hpopened hqopened hsame
  have hold : ∀ {pid : Nat} {old : AttachProc}, w.attaches pid = some old →
      old.pc.opened = true → old.own ≠ w.kernel.loads := fun hp hopened =>
    Nat.ne_of_lt ((hpins.refers _ _ hp).own hopened).1
  rcases hstep.own hp hpopened with ⟨p', hp', hp'opened, hpown⟩ | ⟨hpown, hpact⟩
  · rcases hstep.own hq hqopened with ⟨q', hq', hq'opened, hqown⟩ | ⟨hqown, -⟩
    · exact hw pid p' other q' hp' hq' hp'opened hq'opened
        (hpown.symm.trans (hsame.trans hqown))
    · exact absurd (hpown.symm.trans (hsame.trans hqown)) (hold hp' hp'opened)
  · rcases hstep.own hq hqopened with ⟨q', hq', hq'opened, hqown⟩ | ⟨-, hqact⟩
    · exact absurd (hqown.symm.trans (hsame.symm.trans hpown)) (hold hq' hq'opened)
    · exact Option.some.inj (hpact.symm.trans hqact)

theorem World.Boot.distinct_run {w : World} (hboot : w.Boot) (acts : List Act) :
    Pins (w.run score acts) ∧ Distinct (w.run score acts) := by
  have hnone : Distinct w := by
    intro pid p other q hp
    rw [hboot.attaches pid] at hp
    cases hp
  refine List.foldlRecOn (motive := fun w => Pins w ∧ Distinct w) acts (World.step score)
    ⟨hboot.refers, hnone⟩ fun w hw act _ => ?_
  have hstep := w.step_step score act
  exact ⟨hstep.refers hw.1, hstep.distinct hw.1 hw.2⟩

theorem AttachStep.progPin (hcall : AttachStep score k files pid p a r) (dir : CBuf) :
    r.1.pins dir .prog = k.pins dir .prog ∨ r.1.pins dir .prog = none ∨
      p.pc = .progPin ∧ r.1.pins dir .prog = some p.own := by
  cases hcall with
  | creates | unpinsVersion | pinsVersion => exact Or.inl (k.pin_pins_name _ _ nofun)
  | unpinsProg =>
      exact (k.pin_pins_cases p.cfg.pinDir .prog none dir .prog).imp id fun h => Or.inl h.2
  | pinsProg hpc =>
      exact (k.pin_pins_cases p.cfg.pinDir .prog (some p.own) dir .prog).imp id fun h =>
        Or.inr ⟨hpc, h.2⟩
  | _ => exact Or.inl rfl

theorem World.Step.progPin {w w' : World} {act : Act} (hstep : w.Step score act w')
    (dir : CBuf) :
    w'.kernel.pins dir .prog = w.kernel.pins dir .prog ∨ w'.kernel.pins dir .prog = none ∨
      ∃ pid p, w.attaches pid = some p ∧ p.pc = .progPin ∧
        w'.kernel.pins dir .prog = some p.own := by
  cases hstep with
  | signals pid sig p hp =>
      rw [World.setAttach_pins]
      exact Or.inl rfl
  | runsAttach pid a p r hp hcall =>
      rw [World.setAttach_pins]
      exact (hcall.progPin dir).imp id (Or.imp id fun h => ⟨pid, p, hp, h⟩)
  | runsUnpin pid a u r hnone hu hcall =>
      exact (hcall.pins dir .prog).imp id fun h => Or.inl h.2.2
  | _ => exact Or.inl rfl

/-- The load is not what is pinned as the program, and nobody is left to pin it. -/
structure Disowned (dir : CBuf) (load : Nat) (w : World) : Prop where
  made : load < w.kernel.loads
  unpinned : w.kernel.pins dir .prog ≠ some load
  past : ∀ pid p, w.attaches pid = some p → p.pc.opened = true → p.own = load →
    p.pc.holds = true

theorem World.Step.disowned {w w' : World} {act : Act} {dir : CBuf} {load : Nat}
    (hstep : w.Step score act w') (hw : Disowned dir load w) : Disowned dir load w' := by
  refine ⟨Nat.lt_of_lt_of_le hw.made hstep.extends.loads, ?_, fun pid p hp hopened hown => ?_⟩
  · rcases hstep.progPin dir with hkept | hnone | ⟨pid, p, hp, hpc, hpinned⟩
    · rw [hkept]
      exact hw.unpinned
    · rw [hnone]
      exact nofun
    · intro hload
      have hown : p.own = load := Option.some.inj (hpinned.symm.trans hload)
      have hholds := hw.past pid p hp (by rw [hpc]; rfl) hown
      rw [hpc] at hholds
      cases hholds
  · rcases hstep.proc hp with ⟨old, hold, hsame, -⟩ | hidle | ⟨a, old, r, -, hold, hcall, -, rfl⟩
    · rw [hsame.pc]
      exact hw.past pid old hold (by rw [← hsame.pc]; exact hopened) (hsame.own.symm.trans hown)
    · exact absurd hopened (by simp [AttachPc.opened_of_idle hidle])
    · rcases hcall.own hopened with ⟨holdopened, hsame⟩ | hnew
      · have hholds := hw.past pid old hold holdopened (hsame.symm.trans hown)
        rcases hcall.links with hkept | hmade
        · have halive := AttachPc.ended_of_active (AttachPc.active_of_opened hopened)
          rw [hkept.holds.resolve_left halive]
          exact hholds
        · rw [hmade.pc] at hholds
          cases hholds
      · exact absurd (hown.symm.trans hnew) (Nat.ne_of_lt hw.made)

theorem Disowned.probe {w : World} {dir : CBuf} (hlinks : Links w) {link : XdpLink}
    {load : Nat} (hprog : link.prog = some load) (hw : Disowned dir load w)
    (hlink : link ∈ w.kernel.links) (h : ProbeHost) :
    attachProbe h w.kernel dir link.ifindex ≠ .ok exitAttached ∧
      (h.Calm → attachProbe h w.kernel dir link.ifindex = .ok exitForeign) := by
  have hnot : ¬w.Serves dir link.ifindex := by
    intro hserves
    have hpinned := ((hlinks.serves_iff hlink dir).mp hserves).2
    exact hw.unpinned (hpinned.symm.trans hprog)
  have hprobe := hlinks.attachProbe h dir link.ifindex
  refine ⟨fun hattached => hnot (hprobe.1.mp hattached).1, fun hcalm => ?_⟩
  exact hprobe.2.2.mpr ⟨fun hboth => hnot hboth.1, link, hcalm.finds hlink⟩

theorem World.attaching_refused {w : World} {pid : Nat} {q : AttachProc} {link : XdpLink}
    (hlink : link ∈ w.kernel.links) (hq : w.attaches pid = some q) (hpc : q.pc = .attaching)
    (hif : q.cfg.ifindex = link.ifindex) (howner : link.owner ≠ some pid) (a : Answers) :
    (w.step score (.run pid a)).attaches pid = some (q.exit (some exitUsage)) ∧
      link ∈ (w.step score (.run pid a)).kernel.links := by
  have hbusy : q.cfg.ifindex ∈ w.kernel.links.map XdpLink.ifindex := by
    rw [hif]
    exact List.mem_map_of_mem hlink
  have hcall : attachCall score w.kernel w.files pid q a =
      (w.kernel, q.exit (some exitUsage)) := by
    simp only [attachCall, hpc, attachLink]
    rw [if_neg fun h => h.2.2 hbusy]
  rw [World.step_run hq hcall]
  exact ⟨World.setAttach_self .., World.setAttach_links_of_mem hlink fun _ => howner⟩

/--
The loader still holds its link, but no probe reports it as attached, an `--unpin` is not
refused, and a loader that asks for a link on the interface fails.
-/
structure World.Disowns (score : UInt64 → Nat → S) (w : World) (pid : Nat) (cfg : AttachConfig)
    (link : XdpLink) : Prop where
  held : ∃ p, w.attaches pid = some p ∧ p.Holds pid link
  probe : ∀ h, attachProbe h w.kernel cfg.pinDir cfg.ifindex ≠ .ok exitAttached ∧
    (h.Calm → attachProbe h w.kernel cfg.pinDir cfg.ifindex = .ok exitForeign)
  unpin : ∀ u b, u.pc = .probing → u.cfg.pinDir = cfg.pinDir → u.cfg.ifindex = cfg.ifindex →
    b.probe.Calm → unpinCall w.kernel w.files u b = (w.kernel, { u with pc := .progUnlink })
  attach : ∀ other q b, w.attaches other = some q → q.pc = .attaching →
    q.cfg.ifindex = cfg.ifindex →
      (w.step score (.run other b)).attaches other = some (q.exit (some exitUsage)) ∧
        link ∈ (w.step score (.run other b)).kernel.links

theorem Disowned.disowns {w : World} {cfg : AttachConfig} {link : XdpLink} {load : Nat}
    (hw : Disowned cfg.pinDir load w) (hlinks : Links w) (hprog : link.prog = some load)
    (howner : link.owner = some pid) (hif : link.ifindex = cfg.ifindex)
    (hlink : link ∈ w.kernel.links) : w.Disowns score pid cfg link := by
  have hprobe := hw.probe hlinks hprog hlink
  rw [hif] at hprobe
  refine ⟨hlinks.owned link hlink pid howner, hprobe, fun u b hpc hdir huif hcalm => ?_,
    fun other q b hq hpc hqif => ?_⟩
  · simp only [unpinCall, hpc, hdir, huif, (hprobe b.probe).2 hcalm]
    rfl
  · refine World.attaching_refused hlink hq hpc (hqif.trans hif.symm) (fun hother => ?_) b
    obtain ⟨p, hp, hholds⟩ := hlinks.owned link hlink other hother
    obtain rfl : p = q := Option.some.inj (hp.symm.trans hq)
    have hserves := hholds.holds
    rw [hpc] at hserves
    cases hserves

/--
A second loader for the directory of one that serves replaces the pin of the program before it
asks for its link, and from then on, whatever else goes on, the first is disowned for as long
as its link is in place.
-/
theorem second_attach_disowns {w : World} (hboot : w.Boot) (acts later : List Act)
    {pid other : Nat} {p q : AttachProc} {link : XdpLink} {a : Answers}
    (hp : (w.run score acts).attaches pid = some p) (hplink : p.Holds pid link)
    (hq : (w.run score acts).attaches other = some q) (hpc : q.pc = .progUnlink)
    (hdir : q.cfg.pinDir = p.cfg.pinDir) (hok : a.ok = true)
    (hprog : ((w.run score acts).kernel.loaded q.own).object.hasProg = true)
    (hstays : link ∈ (w.run score (acts ++ .run other a :: later)).kernel.links) :
    (w.run score (acts ++ .run other a :: later)).Disowns score pid p.cfg link := by
  have hlinks : Links (w.run score (acts ++ .run other a :: later)) := (hboot.attached _).1
  have hloads : Pins (w.run score acts) ∧ Distinct (w.run score acts) := hboot.distinct_run acts
  rw [World.run_append, World.run_cons] at hstays hlinks ⊢
  generalize w.run score acts = v at *
  obtain ⟨hpins, hdistinct⟩ := hloads
  have hne : pid ≠ other := by
    rintro rfl
    obtain rfl : p = q := Option.some.inj (hp.symm.trans hq)
    have hholds := hplink.holds
    rw [hpc] at hholds
    cases hholds
  have hpopened : p.pc.opened = true := AttachPc.opened_of_versioned
    (AttachPc.versioned_of_programmed (AttachPc.programmed_of_holds hplink.holds))
  -- The old pin goes; the loader that serves is the only one that runs its load.
  have hstep := v.step_step score (.run other a)
  have hcall : attachCall score v.kernel v.files other q a =
      (v.kernel.pin q.cfg.pinDir .prog none, { q with pc := .progPin }) := by
    simp only [attachCall, hpc]
    rw [if_pos ⟨hok, hprog⟩]
  have hnext := World.step_run hq hcall
  have hdisowned : Disowned p.cfg.pinDir p.own (v.step score (.run other a)) := by
    refine ⟨?_, ?_, fun id old hold hopened hown => ?_⟩
    · exact Nat.lt_of_lt_of_le ((hpins.refers pid p hp).own hpopened).1 hstep.extends.loads
    · rw [hnext, World.setAttach_pins, hdir, Kernel.pin_pins]
      exact (Option.some_ne_none _).symm
    · have hp' : (v.step score (.run other a)).attaches pid = some p := by
        rw [hnext, World.setAttach_other v _ _ hne]
        exact hp
      obtain rfl := hstep.distinct hpins hdistinct id old pid p hold hp' hopened hpopened hown
      obtain rfl : old = p := Option.some.inj (hold.symm.trans hp')
      exact hplink.holds
  refine Disowned.disowns ?_ hlinks hplink.prog hplink.owner hplink.ifindex hstays
  exact List.foldlRecOn (motive := Disowned p.cfg.pinDir p.own) later (World.step score)
    hdisowned fun u hu act _ => (u.step_step score act).disowned hu

end

namespace Sample

def attachTwice : List Act := attachFor 0 27 ++ attachFor 1 24

def unpinAfter : List Act :=
  List.replicate 2 (.run 1 goAhead) ++ .unpin 2 ethEnviron none :: List.replicate 2 (.run 2 goAhead)

theorem attachTwice_state :
    ((bootWorld.run score attachTwice).attaches 0).map
        (fun p => (p.pc, p.own, p.cfg.ifindex, p.cfg.pinDir)) =
      some (.serving, 0, 2, marlinDefaultPinDir) ∧
    ((bootWorld.run score attachTwice).attaches 1).map
        (fun q => (q.pc, q.own, q.cfg.pinDir)) = some (.progUnlink, 1, marlinDefaultPinDir) ∧
    ((bootWorld.run score attachTwice).kernel.loaded 1).object.hasProg = true ∧
    (bootWorld.run score (attachTwice ++ .run 1 goAhead :: unpinAfter)).kernel.links =
      [⟨1, 2, some 0, some 0⟩] := by
  decide +kernel

end Sample

theorem second_attach_disowns_sample :
    ∃ p, (Sample.bootWorld.run Sample.score Sample.attachTwice).attaches 0 = some p ∧
      (Sample.bootWorld.run Sample.score
        (Sample.attachTwice ++ .run 1 Sample.goAhead :: Sample.unpinAfter)).Disowns Sample.score 0
          p.cfg ⟨1, 2, some 0, some 0⟩ := by
  obtain ⟨hfirst, hsecond, hprog, hend⟩ := Sample.attachTwice_state
  obtain ⟨p, hp, hpstate⟩ := Option.map_eq_some_iff.mp hfirst
  obtain ⟨q, hq, hqstate⟩ := Option.map_eq_some_iff.mp hsecond
  simp only [Prod.mk.injEq] at hpstate hqstate
  obtain ⟨hpc, hown, hif, hdir⟩ := hpstate
  obtain ⟨hqpc, hqown, hqdir⟩ := hqstate
  have hplink : p.Holds 0 ⟨1, 2, some 0, some 0⟩ :=
    ⟨by rw [hpc]; rfl, hif.symm, by rw [hown], rfl⟩
  have hstays : (⟨1, 2, some 0, some 0⟩ : XdpLink) ∈ (Sample.bootWorld.run Sample.score
      (Sample.attachTwice ++ .run 1 Sample.goAhead :: Sample.unpinAfter)).kernel.links := by
    rw [hend]
    exact List.mem_singleton.mpr rfl
  rw [← hqown] at hprog
  exact ⟨p, hp, second_attach_disowns Sample.bootWorld_boot Sample.attachTwice Sample.unpinAfter hp
    hplink hq hqpc (hqdir.trans hdir.symm) rfl hprog hstays⟩

end Marlin
