import Marlin.Marlind.ReloadSafety

/-!
# The daemon

`cmd_attach.c`: the reconcile at startup and `handle_reload`, and what holds over
any sequence of reloads.  `conf_load` is represented by what it returns.
-/

namespace Marlin

open Marlin.Library

/-- The part of `struct config` that a reload reads and replaces. -/
structure Config where
  confPath : Option CBuf
  file : MarlinConf

/-- The attached daemon and its pinned maps. -/
structure Daemon where
  cfg : Config
  maps : Maps

inductive ReloadVerdict where
  | unmanaged
  | rejected
  | inPlaceEdit
  | failed
  | reloaded
  deriving DecidableEq, Repr

structure ReloadOutcome where
  verdict : ReloadVerdict
  daemon : Daemon
  steps : List (Maps × Maps)
  log : List String

/-- One SIGHUP: the host it runs on and what `conf_load` returns for the file. -/
structure Reload where
  env : Env
  load : Option LoadedConf

section

variable {S : Type} [LinearOrder S] (score : UInt64 → Nat → S) (keys : BackendKeys)

/-- A failing reconcile ends the process before anything is attached. -/
def reconcileStartup (e : Env) (confPath : CBuf) (loaded : LoadedConf) (mp : Maps) :
    Option Daemon :=
  let outcome := reconcileApply score keys loaded.conf e 0 mp
  outcome.result.map fun file => ⟨⟨some confPath, file⟩, outcome.store⟩

def reloadedText (path : CBuf) (next : MarlinConf) : String :=
  s!"SIGHUP: reloaded {path.text} ({next.backends.length} backend(s), {next.vips.length} vip(s), {next.keys.length} address(es))"

/-- The rest of `handle_reload`, once `conf_load` has returned `next`. -/
def applyReload (d : Daemon) (path : CBuf) (e : Env) (next : LoadedConf) : ReloadOutcome :=
  let diag := (confCheck next.nametoindex next.parsed next.diag).diag
  if (confCheckAgainstPrevious next.conf d.cfg.file diag).1 = false then
    ⟨.inPlaceEdit, d, [],
      [s!"SIGHUP: {path.text} rejected (restart-only key or in-place edit), keeping the previous generation attached"]⟩
  else
    let outcome := reconcileApply score keys next.conf e 0 d.maps
    match outcome.result with
    | none =>
        ⟨.failed, ⟨d.cfg, outcome.store⟩, outcome.steps,
          [s!"SIGHUP: {path.text}: reconcile failed partway through -- maps may be a mix of old and new; fix the underlying problem and send SIGHUP again"]⟩
    | some file =>
        ⟨.reloaded, ⟨{ d.cfg with file := file }, outcome.store⟩, outcome.steps,
          [reloadedText path next.conf]⟩

def handleReload (d : Daemon) (r : Reload) : ReloadOutcome :=
  match d.cfg.confPath with
  | none =>
      ⟨.unmanaged, d, [],
        ["SIGHUP has no effect in environment-managed mode (no --config given)"]⟩
  | some path =>
      match r.load with
      | none =>
          ⟨.rejected, d, [],
            [s!"SIGHUP: {path.text} rejected, keeping the previous generation attached"]⟩
      | some next => applyReload score keys d path r.env next

def Daemon.run (d : Daemon) : List Reload → List (Maps × Maps)
  | [] => []
  | r :: rs =>
      let outcome := handleReload score keys d r
      outcome.steps ++ outcome.daemon.run rs

def failedSince (d : Daemon) (failed : List MarlinConf) (r : Reload) : List MarlinConf :=
  match (handleReload score keys d r).verdict, r.load with
  | .failed, some next => next.conf :: failed
  | .reloaded, _ => []
  | _, _ => failed

/--
No file gives a backend identifier another identity than a file that has failed to
apply since a reload last went through.
-/
def Compatible (d : Daemon) (failed : List MarlinConf) : List Reload → Prop
  | [] => True
  | r :: rs =>
      (∀ next, r.load = some next → ∀ f ∈ failed, next.conf.Agrees f) ∧
      Compatible (handleReload score keys d r).daemon (failedSince score keys d failed r) rs

end

/-- A write keeps the identity of every populated slot that a live row names. -/
def IdentityKept (s t : Maps) : Prop :=
  ∀ id, s.Populated id → s.LiveRow id → (t.backends id).identity = (s.backends id).identity

/-! ## Reloads keep identities -/

theorem MarlinConf.Agrees.refl {conf : MarlinConf} (h : conf.IdsValid) : conf.Agrees conf := by
  intro b hb other hother hid
  rw [List.inj_on_of_nodup_map h.ids_nodup hb hother hid]

theorem Vouched.mono {known known' : List MarlinConf} {mp : Maps} (h : Vouched known mp)
    (hsub : ∀ f ∈ known, ∃ f' ∈ known', f'.backends = f.backends) : Vouched known' mp := by
  intro id hlive hid
  obtain ⟨f, hf, b, hb, hbid, hidentity⟩ := h id hlive hid
  obtain ⟨f', hf', heq⟩ := hsub f hf
  exact ⟨f', hf', b, by rw [heq]; exact hb, hbid, hidentity⟩

theorem LoadedConf.diag_msg (loaded : LoadedConf) :
    (confCheck loaded.nametoindex loaded.parsed loaded.diag).diag.msg = [] := by
  have hlen : (confCheck loaded.nametoindex loaded.parsed loaded.diag).diag.msg.length =
      loaded.diag.msg.length := by
    simpa [confCheck] using loaded.accepted
  rw [loaded.unrejected] at hlen
  exact List.length_eq_zero_iff.mp hlen

section

variable {S : Type} [LinearOrder S] {score : UInt64 → Nat → S} {keys : BackendKeys}

theorem Applied.vouched {conf : MarlinConf} {mp : Maps} (hvalid : conf.IdsValid)
    (h : Applied score conf mp) (hmp : mp.KeysCanonical) : Vouched [conf] mp := by
  intro id hlive hid
  obtain ⟨b, hb, rfl⟩ := (h.settled.liveRow hmp hlive).resolve_left hid
  exact ⟨conf, by simp, b, hb, rfl, h.filled.vouches hvalid hb⟩

/-- What holds of the daemon between reloads. -/
structure Daemon.Sound (d : Daemon) (failed : List MarlinConf) : Prop where
  fileValid : d.cfg.file.IdsValid
  canonical : d.maps.KeysCanonical
  vouched : Vouched (d.cfg.file :: failed) d.maps

variable (score) in
private theorem reconcile_vouched (hkeys : keys.Sound) {e : Env} (hhonest : e.Honest)
    (loaded : LoadedConf) {known : List MarlinConf}
    (hagree : ∀ f ∈ known, loaded.conf.Agrees f) {start : Maps}
    (hstart : start.KeysCanonical) (hvouched : Vouched known start) :
    let outcome := reconcileApply score keys loaded.conf e 0 start
    (outcome.store.KeysCanonical ∧ Vouched (loaded.conf :: known) outcome.store) ∧
      ∀ step ∈ outcome.steps, IdentityKept step.1 step.2 := by
  have hmeets := reconcileApply_meets score hkeys hhonest loaded.checked.keys_distinct
    loaded.keysCanonical start 0
  have hvalid : (loaded.conf.assigned start).IdsValid :=
    ⟨loaded.checked.id_lt, loaded.checked.ids_nodup⟩
  have hcanon : ∀ key ∈ (loaded.conf.assigned start).keys, key.Canonical := by
    rw [MarlinConf.assigned_keys]
    exact loaded.keysCanonical
  -- the file being applied vouches for the rows it writes, the others for the rest
  have hagree' : ∀ f ∈ loaded.conf.assigned start :: known,
      (loaded.conf.assigned start).Agrees f := by
    refine List.forall_mem_cons.mpr ⟨MarlinConf.Agrees.refl hvalid, ?_⟩
    exact fun f hf => hagree f hf
  have hinit : Vouched (loaded.conf.assigned start :: known) start :=
    hvouched.mono fun f hf => ⟨f, by simp [hf], rfl⟩
  obtain ⟨hend, hall⟩ := hmeets.linked.invariant
    (I := fun s => s.KeysCanonical ∧ Vouched (loaded.conf.assigned start :: known) s)
    hmeets.steps
    (fun s t hstep hs => ⟨hstep.keysCanonical hcanon hs.1,
      hstep.vouched hvalid hs.1 hagree' (by simp) hs.2⟩) ⟨hstart, hinit⟩
  refine ⟨⟨hend.1, hend.2.mono ?_⟩, ?_⟩
  · intro f hf
    rcases List.mem_cons.mp hf with rfl | hf
    · exact ⟨loaded.conf, by simp, rfl⟩
    · exact ⟨f, by simp [hf], rfl⟩
  · intro step hstep id hpopulated hlive
    exact (hmeets.steps step hstep).identity_eq hvalid (hall step hstep).1.1 hagree'
      (hall step hstep).1.2 hlive hpopulated.2

private theorem reconcile_sound (hkeys : keys.Sound) {e : Env} (hhonest : e.Honest)
    (loaded : LoadedConf) {start : Maps} (hstart : start.KeysCanonical) {file : MarlinConf}
    (hfile : (reconcileApply score keys loaded.conf e 0 start).result = some file)
    (confPath : Option CBuf) :
    Daemon.Sound ⟨⟨confPath, file⟩, (reconcileApply score keys loaded.conf e 0 start).store⟩
      [] := by
  have hmeets := reconcileApply_meets score hkeys hhonest loaded.checked.keys_distinct
    loaded.keysCanonical start 0
  have hvalid : (loaded.conf.assigned start).IdsValid :=
    ⟨loaded.checked.id_lt, loaded.checked.ids_nodup⟩
  have hcanon : ∀ key ∈ (loaded.conf.assigned start).keys, key.Canonical := by
    rw [MarlinConf.assigned_keys]
    exact loaded.keysCanonical
  obtain ⟨rfl, hdone⟩ := hmeets.finished file hfile
  obtain ⟨hend, -⟩ := hmeets.linked.invariant hmeets.steps
    (fun s t hstep => ReloadStep.keysCanonical hcanon hstep) hstart
  exact ⟨hvalid, hend, hdone.applied.vouched hvalid hend⟩

theorem mem_failedSince {d : Daemon} {failed : List MarlinConf} {r : Reload} {f : MarlinConf}
    (hf : f ∈ failedSince score keys d failed r) :
    f ∈ failed ∨ ∃ next, r.load = some next ∧ f = next.conf := by
  unfold failedSince at hf
  split at hf
  · rename_i next _ hload
    rcases List.mem_cons.mp hf with hf | hf
    · exact Or.inr ⟨next, hload, hf⟩
    · exact Or.inl hf
  · simp at hf
  · exact Or.inl hf

variable (score) in
theorem handleReload_identityKept (hkeys : keys.Sound) {d : Daemon}
    {failed : List MarlinConf} (hd : d.Sound failed) {r : Reload} (hhonest : r.env.Honest)
    (hcompat : ∀ next, r.load = some next → ∀ f ∈ failed, next.conf.Agrees f) :
    (handleReload score keys d r).daemon.Sound (failedSince score keys d failed r) ∧
      ∀ step ∈ (handleReload score keys d r).steps, IdentityKept step.1 step.2 := by
  cases hpath : d.cfg.confPath with
  | none => simpa [handleReload, failedSince, hpath] using hd
  | some path =>
      cases hload : r.load with
      | none => simpa [handleReload, failedSince, hpath, hload] using hd
      | some next =>
          have hreload : handleReload score keys d r =
              applyReload score keys d path r.env next := by
            simp [handleReload, hpath, hload]
          rw [failedSince, hreload, hload]
          by_cases hcheck : (confCheckAgainstPrevious next.conf d.cfg.file
              (confCheck next.nametoindex next.parsed next.diag).diag).1 = false
          · simpa [applyReload, hcheck] using hd
          · have hprev : next.conf.Agrees d.cfg.file :=
              confCheckAgainstPrevious_agrees (by rw [next.diag_msg]; decide)
                hd.fileValid.ids_nodup (by simpa using hcheck)
            have hagree : ∀ f ∈ d.cfg.file :: failed, next.conf.Agrees f :=
              List.forall_mem_cons.mpr ⟨hprev, hcompat next hload⟩
            obtain ⟨⟨hcanon, hvouched⟩, hsteps⟩ := reconcile_vouched score hkeys hhonest
              next hagree hd.canonical hd.vouched
            cases hresult : (reconcileApply score keys next.conf r.env 0 d.maps).result with
            | none =>
                simp only [applyReload, hcheck, hresult]
                refine ⟨⟨hd.fileValid, hcanon, hvouched.mono ?_⟩, hsteps⟩
                intro f hf
                exact ⟨f, by simpa [or_left_comm] using hf, rfl⟩
            | some file =>
                simp only [applyReload, hcheck, hresult]
                exact ⟨reconcile_sound hkeys hhonest next hd.canonical hresult _, hsteps⟩

theorem Daemon.Sound.run_identityKept (hkeys : keys.Sound) {d : Daemon}
    {failed : List MarlinConf} (hd : d.Sound failed) {reloads : List Reload}
    (hhonest : ∀ r ∈ reloads, r.env.Honest) (hcompat : Compatible score keys d failed reloads) :
    ∀ step ∈ d.run score keys reloads, IdentityKept step.1 step.2 := by
  induction reloads generalizing d failed with
  | nil => simp [Daemon.run]
  | cons r rs ih =>
      obtain ⟨hr, hrs⟩ := List.forall_mem_cons.mp hhonest
      obtain ⟨hsound, hsteps⟩ := handleReload_identityKept score hkeys hd hr hcompat.1
      intro step hstep
      rcases List.mem_append.mp hstep with hstep | hstep
      · exact hsteps step hstep
      · exact ih hsound hrs hcompat.2 step hstep

theorem reconcileStartup_sound (hkeys : keys.Sound) {e : Env} (hhonest : e.Honest)
    {confPath : CBuf} {loaded : LoadedConf} {prior : Maps} (hprior : prior.KeysCanonical)
    {d : Daemon} (hd : reconcileStartup score keys e confPath loaded prior = some d) :
    d.Sound [] := by
  obtain ⟨file, hfile, rfl⟩ := Option.map_eq_some_iff.mp hd
  exact reconcile_sound hkeys hhonest loaded hprior hfile (some confPath)

/--
After a successful attach, no write of any sequence of reloads changes the identity
of a backend under a live row, as long as no file contradicts one that has failed to
apply since a reload last went through.
-/
theorem attached_run_identityKept (hkeys : keys.Sound) {e : Env} (hhonest : e.Honest)
    {confPath : CBuf} {loaded : LoadedConf} {prior : Maps} (hprior : prior.KeysCanonical)
    {d : Daemon} (hd : reconcileStartup score keys e confPath loaded prior = some d)
    {reloads : List Reload} (hreloads : ∀ r ∈ reloads, r.env.Honest)
    (hcompat : Compatible score keys d [] reloads) :
    ∀ step ∈ d.run score keys reloads, IdentityKept step.1 step.2 :=
  (reconcileStartup_sound hkeys hhonest hprior hd).run_identityKept hkeys hreloads hcompat

end

theorem attached_run_identityKept_twice :
    ∃ d, reconcileStartup Sample.score .layout Sample.calmEnv [] Sample.loaded Maps.fresh =
        some d ∧
      ∀ step ∈ d.run Sample.score .layout
          [⟨Sample.faultyEnv 17, some Sample.loaded⟩, ⟨Sample.calmEnv, some Sample.loaded⟩],
        IdentityKept step.1 step.2 := by
  have hself : Sample.loaded.conf.Agrees Sample.loaded.conf :=
    MarlinConf.Agrees.refl Sample.loaded.checked.idsValid
  have hattach : reconcileStartup Sample.score .layout Sample.calmEnv [] Sample.loaded
      Maps.fresh = some ⟨⟨some [], Sample.loaded.conf.assigned Maps.fresh⟩,
        (reconcileApply Sample.score .layout Sample.loaded.conf Sample.calmEnv 0
          Maps.fresh).store⟩ := by
    simp only [reconcileStartup, reconcileApply_succeeds Sample.score BackendKeys.layout_sound
      Sample.calmEnv_honest Sample.loaded.checked.keys_distinct Sample.loaded.keysCanonical
      0 Sample.loaded_unhindered_layout, Option.map_some]
  refine ⟨_, hattach, attached_run_identityKept BackendKeys.layout_sound
    Sample.calmEnv_honest Sample.fresh_keysCanonical hattach
    (by simp [Sample.faultyEnv_honest, Sample.calmEnv_honest]) ⟨by simp, ?_, trivial⟩⟩
  intro next hnext f hf
  rcases mem_failedSince hf with hf | ⟨first, hfirst, rfl⟩
  · simp at hf
  · rw [← Option.some.inj hnext, ← Option.some.inj hfirst]
    exact hself

end Marlin
