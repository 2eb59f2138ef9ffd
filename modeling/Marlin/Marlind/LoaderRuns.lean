import Marlin.Library.Runs
import Marlin.Marlind.LoaderStep

/-!
# Attached or gone

What holds of any number of loaders in any interleaving of their calls with each other, with
signals and with interfaces that come and go: a link of the loader's belongs to a process
that is alive, and a process that has lost its link has a notice of it waiting.
-/

namespace Marlin

open Marlin.Library

/-! ## Processes in a world -/

namespace World

theorem setAttach_self (w : World) (pid : Nat) (k : Kernel) (p : AttachProc) :
    (w.setAttach pid k p).attaches pid = some p :=
  Function.update_self ..

theorem setAttach_other (w : World) {pid other : Nat} (k : Kernel) (p : AttachProc)
    (hother : other ≠ pid) : (w.setAttach pid k p).attaches other = w.attaches other :=
  Function.update_of_ne hother ..

theorem mem_setAttach_links {w : World} {pid : Nat} {k : Kernel} {p : AttachProc}
    {link : XdpLink} (hlink : link ∈ (w.setAttach pid k p).kernel.links) :
    link ∈ k.links ∧ (p.pc.ended = true → link.owner ≠ some pid) := by
  simp only [setAttach] at hlink
  split at hlink
  · simp only [Kernel.close, List.mem_filter, decide_eq_true_eq] at hlink
    exact ⟨hlink.1, fun _ => hlink.2⟩
  · next hended => exact ⟨hlink, fun h => absurd h hended⟩

theorem setAttach_links_of_mem {w : World} {pid : Nat} {k : Kernel} {p : AttachProc}
    {link : XdpLink} (hlink : link ∈ k.links) (hkeep : p.pc.ended = true → link.owner ≠ some pid) :
    link ∈ (w.setAttach pid k p).kernel.links := by
  simp only [setAttach]
  split
  · next hended =>
      simp only [Kernel.close, List.mem_filter, decide_eq_true_eq]
      exact ⟨hlink, hkeep hended⟩
  · exact hlink

theorem setAttach_links_sublist (w : World) (pid : Nat) (k : Kernel) (p : AttachProc) :
    ((w.setAttach pid k p).kernel.links).Sublist k.links := by
  simp only [setAttach]
  split
  · exact List.filter_sublist
  · exact List.Sublist.refl _

theorem broadcast_attaches {w : World} {overrun : List Nat} {msgs : List NlMsg} {pid : Nat}
    {p : AttachProc} (hpid : (w.broadcast overrun msgs).attaches pid = some p) :
    ∃ old, w.attaches pid = some old ∧ p = old.deliver (overrun.contains pid) msgs := by
  simp only [broadcast, Option.map_eq_some_iff] at hpid
  obtain ⟨old, hold, hp⟩ := hpid
  exact ⟨old, hold, hp.symm⟩

theorem broadcast_of_attaches {w : World} {pid : Nat} {p : AttachProc}
    (hpid : w.attaches pid = some p) (overrun : List Nat) (msgs : List NlMsg) :
    (w.broadcast overrun msgs).attaches pid =
      some (p.deliver (overrun.contains pid) msgs) := by
  simp only [broadcast, hpid, Option.map_some]

section

variable {S : Type} [LinearOrder S] {score : UInt64 → Nat → S} {w : World} {pid : Nat}
  {p p' : AttachProc} {a : Answers} {k' : Kernel}

theorem step_run (hp : w.attaches pid = some p)
    (hcall : attachCall score w.kernel w.files pid p a = (k', p')) :
    w.step score (.run pid a) = w.setAttach pid k' p' := by
  simp only [step, hp, hcall]

theorem step_call (hp : w.attaches pid = some p)
    (hcall : attachCall score w.kernel w.files pid p a = (k', p')) (halive : p'.pc.ended = false) :
    ∃ w', w.step score (.run pid a) = w' ∧ w'.attaches pid = some p' ∧ w'.kernel = k' ∧
      w'.files = w.files := by
  refine ⟨_, step_run hp hcall, setAttach_self .., ?_, rfl⟩
  simp only [setAttach, halive, Bool.false_eq_true, if_false]

end

end World

structure AttachProc.SameWork (p q : AttachProc) : Prop where
  pc : q.pc = p.pc
  environ : q.environ = p.environ
  confPath : q.confPath = p.confPath
  cfg : q.cfg = p.cfg
  own : q.own = p.own
  handles : q.handles = p.handles
  link : q.link = p.link
  read : q.read = p.read
  clean : q.clean = p.clean

theorem AttachProc.deliver_sameWork (p : AttachProc) (overrun : Bool) (msgs : List NlMsg) :
    p.SameWork (p.deliver overrun msgs) := by
  simp only [deliver]
  split
  · exact ⟨rfl, rfl, rfl, rfl, rfl, rfl, rfl, rfl, rfl⟩
  split
  · exact ⟨rfl, rfl, rfl, rfl, rfl, rfl, rfl, rfl, rfl⟩
  · exact ⟨rfl, rfl, rfl, rfl, rfl, rfl, rfl, rfl, rfl⟩

theorem AttachProc.signal_cases (p : AttachProc) (files : Files) (sig : Signal) :
    p.signal files sig = p.exit none ∨
      p.pc.signals = true ∧ p.signal files sig = { p with hup := true, asked := p.edits files } ∨
        p.pc.signals = true ∧ p.signal files sig = { p with term := true } := by
  cases sig with
  | hup =>
      simp only [signal]
      split
      · next hsignals => exact Or.inr (Or.inl ⟨hsignals, rfl⟩)
      · exact Or.inl rfl
  | term =>
      simp only [signal]
      split
      · next hsignals => exact Or.inr (Or.inr ⟨hsignals, rfl⟩)
      · exact Or.inl rfl
  | kill => exact Or.inl rfl

/-! ## Links and their processes -/

structure AttachProc.Holds (p : AttachProc) (pid : Nat) (link : XdpLink) : Prop where
  holds : p.pc.holds = true
  ifindex : link.ifindex = p.cfg.ifindex
  prog : link.prog = some p.own
  owner : link.owner = some pid

/-- An interface has one link at most, and the loader's links have their processes. -/
structure Links (w : World) : Prop where
  distinct : (w.kernel.links.map XdpLink.ifindex).Nodup
  owned : ∀ link ∈ w.kernel.links, ∀ pid, link.owner = some pid →
    ∃ p, w.attaches pid = some p ∧ p.Holds pid link
  foreign : ∀ link ∈ w.kernel.links, link.owner = none → link.prog = none

theorem World.Boot.links {w : World} (hboot : w.Boot) : Links w where
  distinct := hboot.distinct
  owned link hlink pid howner := by
    rw [(hboot.foreign link hlink).2] at howner
    cases howner
  foreign link hlink _ := (hboot.foreign link hlink).1

section

variable {S : Type} [LinearOrder S] {score : UInt64 → Nat → S} {k : Kernel} {files : Files}
  {pid : Nat} {p : AttachProc} {a : Answers} {r : Kernel × AttachProc}

structure LinksKept (k : Kernel) (p : AttachProc) (r : Kernel × AttachProc) : Prop where
  links : r.1.links = k.links
  holds : r.2.pc.ended = true ∨ r.2.pc.holds = p.pc.holds
  ifindex : p.pc.holds = true → r.2.cfg.ifindex = p.cfg.ifindex
  own : p.pc.holds = true → r.2.own = p.own

structure LinkMade (k : Kernel) (pid : Nat) (p : AttachProc) (r : Kernel × AttachProc) :
    Prop where
  pc : p.pc = .attaching
  free : p.cfg.ifindex ∉ k.links.map XdpLink.ifindex
  links : r.1.links = k.links ++ [⟨k.nextLink, p.cfg.ifindex, some p.own, some pid⟩]
  proc : r.2 = { p with pc := .serving, link := k.nextLink }

theorem LinksKept.idle (hlinks : r.1.links = k.links) (hp : p.pc.holds = false)
    (hr : r.2.pc.holds = false) : LinksKept k p r where
  links := hlinks
  holds := Or.inr (hr.trans hp.symm)
  ifindex hholds := by simp [hp] at hholds
  own hholds := by simp [hp] at hholds

theorem AttachStep.links (hcall : AttachStep score k files pid p a r) :
    LinksKept k p r ∨ LinkMade k pid p r := by
  cases hcall with
  | stays => exact Or.inl ⟨rfl, Or.inr rfl, fun _ => rfl, fun _ => rfl⟩
  | exits code => exact Or.inl ⟨rfl, Or.inl rfl, fun _ => rfl, fun _ => rfl⟩
  | configures cfg hpc => exact Or.inl (.idle rfl (by rw [hpc]; rfl) rfl)
  | prepares pc hpc =>
      exact Or.inl (.idle rfl (preparation_holds hpc).1 (preparation_holds hpc).2)
  | opens object hpc => exact Or.inl (.idle rfl (by rw [hpc]; rfl) rfl)
  | reuses m rest load hpc => exact Or.inl (.idle rfl (by rw [hpc]; rfl) rfl)
  | creates m rest hpc => exact Or.inl (.idle rfl (by rw [hpc]; rfl) rfl)
  | mapped hpc => exact Or.inl (.idle rfl (by rw [hpc]; rfl) rfl)
  | unversioned hpc => exact Or.inl (.idle rfl (by rw [hpc]; rfl) rfl)
  | unpinsVersion hpc => exact Or.inl (.idle rfl (by rw [hpc]; rfl) rfl)
  | pinsVersion hpc => exact Or.inl (.idle rfl (by rw [hpc]; rfl) rfl)
  | fileless hpc => exact Or.inl (.idle rfl (by rw [hpc]; rfl) rfl)
  | reconciled conf file hpc => exact Or.inl (.idle rfl (by rw [hpc]; rfl) rfl)
  | refuses conf => exact Or.inl ⟨rfl, Or.inl rfl, fun _ => rfl, fun _ => rfl⟩
  | unpinsProg hpc => exact Or.inl (.idle rfl (by rw [hpc]; rfl) rfl)
  | pinsProg hpc => exact Or.inl (.idle rfl (by rw [hpc]; rfl) rfl)
  | attaches hpc _ hfree => exact Or.inr ⟨hpc, hfree, rfl, rfl⟩
  | overruns => exact Or.inl ⟨rfl, Or.inr rfl, fun _ => rfl, fun _ => rfl⟩
  | hears => exact Or.inl ⟨rfl, Or.inr rfl, fun _ => rfl, fun _ => rfl⟩
  | hup hpc => exact Or.inl ⟨rfl, Or.inr (by rw [hpc]; rfl), fun _ => rfl, fun _ => rfl⟩
  | ignores hpc => exact Or.inl ⟨rfl, Or.inr (by rw [hpc]; rfl), fun _ => rfl, fun _ => rfl⟩
  | rejects _ hpc => exact Or.inl ⟨rfl, Or.inr (by rw [hpc]; rfl), fun _ => rfl, fun _ => rfl⟩
  | reloads _ _ _ _ _ hpc =>
      exact Or.inl ⟨rfl, Or.inr (by rw [hpc]; rfl), fun _ => rfl, fun _ => rfl⟩
  | breaks _ _ _ _ hpc =>
      exact Or.inl ⟨rfl, Or.inr (by rw [hpc]; rfl), fun _ => rfl, fun _ => rfl⟩

theorem AttachProc.signal_linksKept (k : Kernel) (p : AttachProc) (files : Files) (sig : Signal) :
    LinksKept k p (k, p.signal files sig) := by
  rcases p.signal_cases files sig with hsig | ⟨-, hsig⟩ | ⟨-, hsig⟩
  · rw [hsig]
    exact ⟨rfl, Or.inl rfl, fun _ => rfl, fun _ => rfl⟩
  · rw [hsig]
    exact ⟨rfl, Or.inr rfl, fun _ => rfl, fun _ => rfl⟩
  · rw [hsig]
    exact ⟨rfl, Or.inr rfl, fun _ => rfl, fun _ => rfl⟩

end

section

variable {w : World}

theorem Links.unowned (hw : Links w) {pid : Nat} {p : AttachProc} (hp : w.attaches pid = some p)
    (hholds : p.pc.holds = false) : ∀ link ∈ w.kernel.links, link.owner ≠ some pid := by
  intro link hlink howner
  obtain ⟨q, hq, hqlink⟩ := hw.owned link hlink pid howner
  obtain rfl : p = q := Option.some.inj (hp.symm.trans hq)
  have := hqlink.holds
  rw [hholds] at this
  cases this

theorem Links.kept (hw : Links w) {pid : Nat} {p : AttachProc} {r : Kernel × AttachProc}
    (hp : w.attaches pid = some p) (hkept : LinksKept w.kernel p r) :
    Links (w.setAttach pid r.1 r.2) where
  distinct := by
    have hsub := w.setAttach_links_sublist pid r.1 r.2
    rw [hkept.links] at hsub
    exact hw.distinct.sublist (hsub.map XdpLink.ifindex)
  owned link hlink owner howner := by
    obtain ⟨hmem, hended⟩ := World.mem_setAttach_links hlink
    rw [hkept.links] at hmem
    obtain ⟨q, hq, hqlink⟩ := hw.owned link hmem owner howner
    by_cases hsame : owner = pid
    · subst hsame
      obtain rfl : p = q := Option.some.inj (hp.symm.trans hq)
      have halive : r.2.pc.ended ≠ true := fun h => hended h howner
      refine ⟨r.2, World.setAttach_self .., ?_⟩
      exact
        { holds := (hkept.holds.resolve_left halive).trans hqlink.holds
          ifindex := by rw [hkept.ifindex hqlink.holds]; exact hqlink.ifindex
          prog := by rw [hkept.own hqlink.holds]; exact hqlink.prog
          owner := howner }
    · exact ⟨q, (World.setAttach_other w r.1 r.2 hsame).trans hq, hqlink⟩
  foreign link hlink howner := by
    obtain ⟨hmem, -⟩ := World.mem_setAttach_links hlink
    rw [hkept.links] at hmem
    exact hw.foreign link hmem howner

theorem Links.made (hw : Links w) {pid : Nat} {p : AttachProc} {r : Kernel × AttachProc}
    (hp : w.attaches pid = some p) (hmade : LinkMade w.kernel pid p r) :
    Links (w.setAttach pid r.1 r.2) where
  distinct := by
    have hsub := w.setAttach_links_sublist pid r.1 r.2
    refine List.Nodup.sublist (hsub.map XdpLink.ifindex) ?_
    rw [hmade.links, List.map_append, List.map_singleton]
    exact (List.nodup_append_comm.mp
      (List.nodup_cons.mpr ⟨hmade.free, hw.distinct⟩ : (_ :: _).Nodup))
  owned link hlink owner howner := by
    obtain ⟨hmem, -⟩ := World.mem_setAttach_links hlink
    rw [hmade.links, List.mem_append, List.mem_singleton] at hmem
    rcases hmem with hmem | rfl
    · have hidle : p.pc.holds = false := by rw [hmade.pc]; rfl
      have hother : owner ≠ pid := by
        rintro rfl
        exact hw.unowned hp hidle link hmem howner
      obtain ⟨q, hq, hqlink⟩ := hw.owned link hmem owner howner
      exact ⟨q, (World.setAttach_other w r.1 r.2 hother).trans hq, hqlink⟩
    · obtain rfl : pid = owner := Option.some.inj howner
      refine ⟨r.2, World.setAttach_self .., ?_⟩
      rw [hmade.proc]
      exact ⟨rfl, rfl, rfl, rfl⟩
  foreign link hlink howner := by
    obtain ⟨hmem, -⟩ := World.mem_setAttach_links hlink
    rw [hmade.links, List.mem_append, List.mem_singleton] at hmem
    rcases hmem with hmem | rfl
    · exact hw.foreign link hmem howner
    · cases howner

theorem Links.fewer (hw : Links w) {w' : World}
    (hsub : w'.kernel.links.Sublist w.kernel.links)
    (hproc : ∀ pid p, w.attaches pid = some p → ∃ q, w'.attaches pid = some q ∧ p.SameWork q) :
    Links w' where
  distinct := hw.distinct.sublist (hsub.map XdpLink.ifindex)
  owned link hlink pid howner := by
    obtain ⟨p, hp, hplink⟩ := hw.owned link (hsub.subset hlink) pid howner
    obtain ⟨q, hq, hsame⟩ := hproc pid p hp
    refine ⟨q, hq, ?_⟩
    exact
      { holds := by rw [hsame.pc]; exact hplink.holds
        ifindex := by rw [hsame.cfg]; exact hplink.ifindex
        prog := by rw [hsame.own]; exact hplink.prog
        owner := howner }
  foreign link hlink howner := hw.foreign link (hsub.subset hlink) howner

theorem Links.same (hw : Links w) {w' : World} (hlinks : w'.kernel.links = w.kernel.links)
    (hproc : ∀ pid p, w.attaches pid = some p → w'.attaches pid = some p) : Links w' := by
  refine hw.fewer (by rw [hlinks]) fun pid p hp => ⟨p, hproc pid p hp, ?_⟩
  exact ⟨rfl, rfl, rfl, rfl, rfl, rfl, rfl, rfl, rfl⟩

theorem UnpinStep.links {k : Kernel} {files : Files} {u : UnpinProc} {a : Answers}
    {r : Kernel × UnpinProc} (hcall : UnpinStep k files u a r) : r.1.links = k.links := by
  cases hcall <;> rfl

variable {S : Type} [LinearOrder S] {score : UInt64 → Nat → S}

theorem World.Step.links {act : Act} {w' : World} (hstep : w.Step score act w') (hw : Links w) :
    Links w' := by
  cases hstep with
  | stays => exact hw
  | edits path file => exact hw.same rfl fun _ _ hp => hp
  | installs path object => exact hw.same rfl fun _ _ hp => hp
  | addsIf name => exact hw.same rfl fun _ _ hp => hp
  | removesIf ifindex len overrun =>
      refine hw.fewer List.filter_sublist fun pid p hp => ?_
      exact ⟨_, World.broadcast_of_attaches hp _ _, p.deliver_sameWork _ _⟩
  | notices msgs overrun =>
      refine hw.fewer (List.Sublist.refl _) fun pid p hp => ?_
      exact ⟨_, World.broadcast_of_attaches hp _ _, p.deliver_sameWork _ _⟩
  | attachesForeign ifindex hfree =>
      refine ⟨?_, ?_, ?_⟩
      · rw [List.map_append, List.map_singleton]
        exact List.nodup_append_comm.mp (List.nodup_cons.mpr ⟨hfree, hw.distinct⟩)
      · intro link hlink pid howner
        rcases List.mem_append.mp hlink with hmem | hmem
        · exact hw.owned link hmem pid howner
        · obtain rfl := List.mem_singleton.mp hmem
          cases howner
      · intro link hlink howner
        rcases List.mem_append.mp hlink with hmem | hmem
        · exact hw.foreign link hmem howner
        · obtain rfl := List.mem_singleton.mp hmem
          rfl
  | detachesForeign id =>
      refine hw.fewer List.filter_sublist fun pid p hp => ⟨p, hp, ?_⟩
      exact ⟨rfl, rfl, rfl, rfl, rfl, rfl, rfl, rfl, rfl⟩
  | signals pid sig p hp => exact hw.kept hp (p.signal_linksKept w.kernel w.files sig)
  | stopsUnpin pid sig u hu => exact hw.same rfl fun _ _ hp => hp
  | startsAttach pid environ confPath hnone =>
      refine hw.same rfl fun other p hp => ?_
      have hother : other ≠ pid := by
        rintro rfl
        rw [hnone] at hp
        cases hp
      exact (Function.update_of_ne hother ..).trans hp
  | startsUnpin pid environ confPath => exact hw.same rfl fun _ _ hp => hp
  | runsAttach pid a p r hp hcall =>
      rcases hcall.links with hkept | hmade
      · exact hw.kept hp hkept
      · exact hw.made hp hmade
  | runsUnpin pid a u r hnone hu hcall => exact hw.same hcall.links fun _ _ hp => hp

/-! ## A lost link is noticed -/

/-- Unless the kernel had to drop a message for it, a process whose link is gone has the
notice in its socket. -/
structure Watched (w : World) : Prop where
  told : ∀ pid p, w.attaches pid = some p → p.missed = false → p.sockErr = false
  noticed : ∀ pid p, w.attaches pid = some p → p.pc.holds = true → p.missed = false →
    (∃ link ∈ w.kernel.links, p.Holds pid link) ∨
      (linkMonitorSawDellink p.cfg.ifindex p.queue).1 = true

theorem World.Boot.watched (hboot : w.Boot) : Watched w where
  told pid p hp := by
    rw [hboot.attaches pid] at hp
    cases hp
  noticed pid p hp := by
    rw [hboot.attaches pid] at hp
    cases hp

theorem linkMonitorSawDellink_append {ifindex : Nat} {queue : List (List NlMsg)}
    (hsaw : (linkMonitorSawDellink ifindex queue).1 = true) (later : List (List NlMsg)) :
    (linkMonitorSawDellink ifindex (queue ++ later)).1 = true := by
  induction queue with
  | nil => cases hsaw
  | cons datagram queue ih =>
      simp only [linkMonitorSawDellink] at hsaw ⊢
      rw [List.cons_append]
      simp only [linkMonitorSawDellink]
      split
      · rfl
      · next hany =>
          rw [if_neg hany] at hsaw
          exact ih hsaw

theorem nlmsgsReceived_dellink {ifindex len : Nat} (hlen : nlmsgHdrlen ≤ len)
    (hfits : len ≤ linkMonitorBuf) :
    nlmsgsReceived [⟨rtmDellink, len, ifindex⟩] = [⟨rtmDellink, len, ifindex⟩] := by
  have halign : len ≤ nlmsgAlign len := by
    simp only [nlmsgAlign]
    omega
  have hwithin : nlmsgHdrlen ≤ min linkMonitorBuf (nlmsgAlign len) ∧ nlmsgHdrlen ≤ len ∧
      len ≤ min linkMonitorBuf (nlmsgAlign len) := by
    omega
  simp only [nlmsgsReceived, List.map_singleton, List.sum_singleton, nlmsgsWithin,
    if_pos hwithin]

theorem linkMonitorSawDellink_notice {ifindex len : Nat} (hlen : nlmsgHdrlen ≤ len)
    (hfits : len ≤ linkMonitorBuf) (queue : List (List NlMsg)) :
    (linkMonitorSawDellink ifindex (queue ++ [[⟨rtmDellink, len, ifindex⟩]])).1 = true := by
  induction queue with
  | nil =>
      simp only [List.nil_append, linkMonitorSawDellink, nlmsgsReceived_dellink hlen hfits]
      simp
  | cons datagram queue ih =>
      rw [List.cons_append]
      simp only [linkMonitorSawDellink]
      split
      · rfl
      · exact ih

theorem AttachProc.deliver_queue {p : AttachProc} {overrun : Bool} {msgs : List NlMsg}
    (hholds : p.pc.holds = true) (hmissed : (p.deliver overrun msgs).missed = false) :
    p.missed = false ∧ (p.deliver overrun msgs).queue = p.queue ++ [msgs] := by
  have hwatches : p.pc.watches ≠ false := by
    cases hpc : p.pc <;> simp_all [AttachPc.holds, AttachPc.watches]
  simp only [deliver, if_neg hwatches] at hmissed ⊢
  split
  · next hoverrun =>
      rw [if_pos hoverrun] at hmissed
      cases hmissed
  · next hoverrun =>
      rw [if_neg hoverrun] at hmissed
      exact ⟨hmissed, rfl⟩

theorem AttachProc.deliver_told {p : AttachProc} {overrun : Bool} {msgs : List NlMsg}
    (htold : p.missed = false → p.sockErr = false)
    (hmissed : (p.deliver overrun msgs).missed = false) :
    (p.deliver overrun msgs).sockErr = false := by
  simp only [deliver] at hmissed ⊢
  split
  · next hwatches =>
      rw [if_pos hwatches] at hmissed
      exact htold hmissed
  split
  · next hwatches hoverrun =>
      rw [if_neg hwatches, if_pos hoverrun] at hmissed
      cases hmissed
  · next hwatches hoverrun =>
      rw [if_neg hwatches, if_neg hoverrun] at hmissed
      exact htold hmissed

structure SocketKept (p r : AttachProc) : Prop where
  missed : r.missed = p.missed
  told : p.sockErr = false → r.sockErr = false
  saw : r.pc.ended = true ∨ (p.pc.holds = true → p.sockErr = false →
    (linkMonitorSawDellink p.cfg.ifindex p.queue).1 = true → r.queue = p.queue)

theorem SocketKept.same {p r : AttachProc} (hmissed : r.missed = p.missed)
    (hsock : r.sockErr = p.sockErr) (hqueue : r.queue = p.queue) : SocketKept p r :=
  ⟨hmissed, fun h => hsock.trans h, Or.inr fun _ _ _ => hqueue⟩

theorem AttachStep.socket {k : Kernel} {files : Files} {pid : Nat} {p : AttachProc} {a : Answers}
    {r : Kernel × AttachProc} (hcall : AttachStep score k files pid p a r) :
    SocketKept p r.2 := by
  cases hcall with
  | exits code => exact ⟨rfl, fun _ => rfl, Or.inl rfl⟩
  | refuses => exact ⟨rfl, fun _ => rfl, Or.inl rfl⟩
  | overruns => exact ⟨rfl, fun _ => rfl, Or.inr fun _ _ _ => rfl⟩
  | hears hpc hsock hsaw =>
      refine ⟨rfl, fun h => h, Or.inr fun _ _ h => ?_⟩
      rw [hsaw] at h
      cases h
  | _ => exact .same rfl rfl rfl

theorem AttachProc.signal_socket (p : AttachProc) (files : Files) (sig : Signal) :
    SocketKept p (p.signal files sig) := by
  rcases p.signal_cases files sig with hsig | ⟨-, hsig⟩ | ⟨-, hsig⟩
  · rw [hsig]
    exact ⟨rfl, fun _ => rfl, Or.inl rfl⟩
  · rw [hsig]
    exact .same rfl rfl rfl
  · rw [hsig]
    exact .same rfl rfl rfl

theorem AttachProc.Holds.sameWork {p q : AttachProc} {pid : Nat} {link : XdpLink}
    (hlink : p.Holds pid link) (hsame : p.SameWork q) : q.Holds pid link where
  holds := by rw [hsame.pc]; exact hlink.holds
  ifindex := by rw [hsame.cfg]; exact hlink.ifindex
  prog := by rw [hsame.own]; exact hlink.prog
  owner := hlink.owner

theorem Watched.kept (hw : Watched w) {pid : Nat} {p : AttachProc} {r : Kernel × AttachProc}
    (hp : w.attaches pid = some p) (hkept : LinksKept w.kernel p r) (hsocket : SocketKept p r.2) :
    Watched (w.setAttach pid r.1 r.2) := by
  refine ⟨?_, ?_⟩
  · intro other q hq hmissed
    by_cases hsame : other = pid
    · subst hsame
      obtain rfl : r.2 = q := Option.some.inj ((World.setAttach_self w other r.1 r.2).symm.trans hq)
      exact hsocket.told (hw.told other p hp (hsocket.missed.symm.trans hmissed))
    · rw [World.setAttach_other w r.1 r.2 hsame] at hq
      exact hw.told other q hq hmissed
  · intro other q hq hholds hmissed
    by_cases hsame : other = pid
    · subst hsame
      obtain rfl : r.2 = q := Option.some.inj ((World.setAttach_self w other r.1 r.2).symm.trans hq)
      have hmissedp := hsocket.missed.symm.trans hmissed
      have halive : r.2.pc.ended ≠ true := by
        intro hended
        cases hpc : r.2.pc <;> simp_all [AttachPc.ended, AttachPc.holds]
      have hholdsp := (hkept.holds.resolve_left halive).symm.trans hholds
      have hindex := hkept.ifindex hholdsp
      rcases hw.noticed other p hp hholdsp hmissedp with ⟨link, hlink, hplink⟩ | hsaw
      · refine Or.inl ⟨link, World.setAttach_links_of_mem ?_ fun hended => absurd hended halive, ?_⟩
        · rw [hkept.links]
          exact hlink
        · exact
            { holds := hholds
              ifindex := by rw [hindex]; exact hplink.ifindex
              prog := by rw [hkept.own hholdsp]; exact hplink.prog
              owner := hplink.owner }
      · refine Or.inr ?_
        rw [hindex, hsocket.saw.resolve_left halive hholdsp (hw.told other p hp hmissedp) hsaw]
        exact hsaw
    · rw [World.setAttach_other w r.1 r.2 hsame] at hq
      refine (hw.noticed other q hq hholds hmissed).imp ?_ id
      rintro ⟨link, hlink, hqlink⟩
      refine ⟨link, World.setAttach_links_of_mem ?_ ?_, hqlink⟩
      · rw [hkept.links]
        exact hlink
      · intro _ howner
        exact hsame (Option.some.inj (hqlink.owner.symm.trans howner))

theorem Watched.made (hw : Watched w) {pid : Nat} {p : AttachProc} {r : Kernel × AttachProc}
    (hp : w.attaches pid = some p) (hmade : LinkMade w.kernel pid p r) :
    Watched (w.setAttach pid r.1 r.2) := by
  have halive : r.2.pc.ended ≠ true := by
    rw [hmade.proc]
    exact Bool.false_ne_true
  have hmem : ∀ link ∈ r.1.links, link ∈ (w.setAttach pid r.1 r.2).kernel.links :=
    fun link hlink => World.setAttach_links_of_mem hlink fun hended => absurd hended halive
  refine ⟨?_, ?_⟩
  · intro other q hq hmissed
    by_cases hsame : other = pid
    · subst hsame
      obtain rfl : r.2 = q := Option.some.inj ((World.setAttach_self w other r.1 r.2).symm.trans hq)
      rw [hmade.proc] at hmissed ⊢
      exact hw.told other p hp hmissed
    · rw [World.setAttach_other w r.1 r.2 hsame] at hq
      exact hw.told other q hq hmissed
  · intro other q hq hholds hmissed
    by_cases hsame : other = pid
    · subst hsame
      obtain rfl : r.2 = q := Option.some.inj ((World.setAttach_self w other r.1 r.2).symm.trans hq)
      refine Or.inl ⟨⟨w.kernel.nextLink, p.cfg.ifindex, some p.own, some other⟩, hmem _ ?_, ?_⟩
      · rw [hmade.links]
        exact List.mem_append_right _ (List.mem_singleton.mpr rfl)
      · rw [hmade.proc]
        exact ⟨rfl, rfl, rfl, rfl⟩
    · rw [World.setAttach_other w r.1 r.2 hsame] at hq
      refine (hw.noticed other q hq hholds hmissed).imp ?_ id
      rintro ⟨link, hlink, hqlink⟩
      refine ⟨link, hmem _ ?_, hqlink⟩
      rw [hmade.links]
      exact List.mem_append_left _ hlink

/-- A message of the group, with the links that stay; for a link that does not, it is the
notice of its interface. -/
theorem Watched.broadcast (hw : Watched w) (w' : World) (hproc : w'.attaches = w.attaches)
    {overrun : List Nat} {msgs : List NlMsg}
    (hgone : ∀ link ∈ w.kernel.links, link ∈ w'.kernel.links ∨
      ∀ queue, (linkMonitorSawDellink link.ifindex (queue ++ [msgs])).1 = true) :
    Watched (w'.broadcast overrun msgs) := by
  refine ⟨?_, ?_⟩
  · intro pid q hq hmissed
    obtain ⟨p, hp, rfl⟩ := World.broadcast_attaches hq
    rw [hproc] at hp
    exact AttachProc.deliver_told (hw.told pid p hp) hmissed
  · intro pid q hq hholds hmissed
    obtain ⟨p, hp, rfl⟩ := World.broadcast_attaches hq
    rw [hproc] at hp
    have hsame := p.deliver_sameWork (overrun.contains pid) msgs
    have hholdsp : p.pc.holds = true := by
      rw [← hsame.pc]
      exact hholds
    obtain ⟨hmissedp, hqueue⟩ := AttachProc.deliver_queue hholdsp hmissed
    rw [hqueue, hsame.cfg]
    rcases hw.noticed pid p hp hholdsp hmissedp with ⟨link, hlink, hplink⟩ | hsaw
    · rcases hgone link hlink with hstays | hnotice
      · exact Or.inl ⟨link, hstays, hplink.sameWork hsame⟩
      · refine Or.inr ?_
        rw [← hplink.ifindex]
        exact hnotice p.queue
    · exact Or.inr (linkMonitorSawDellink_append hsaw _)

theorem Watched.same (hw : Watched w) {w' : World}
    (hlinks : ∀ link ∈ w.kernel.links, link.owner ≠ none → link ∈ w'.kernel.links)
    (hproc : ∀ pid p, w'.attaches pid = some p →
      w.attaches pid = some p ∨ p.pc.holds = false ∧ p.sockErr = false) : Watched w' := by
  refine ⟨?_, ?_⟩
  · intro pid p hp hmissed
    rcases hproc pid p hp with hold | ⟨-, hsock⟩
    · exact hw.told pid p hold hmissed
    · exact hsock
  · intro pid p hp hholds hmissed
    rcases hproc pid p hp with hold | ⟨hidle, -⟩
    · refine (hw.noticed pid p hold hholds hmissed).imp ?_ id
      rintro ⟨link, hlink, hplink⟩
      refine ⟨link, hlinks link hlink ?_, hplink⟩
      rw [hplink.owner]
      exact Option.some_ne_none _
    · rw [hidle] at hholds
      cases hholds

theorem World.Step.watched {act : Act} {w' : World} (hstep : w.Step score act w')
    (hw : Watched w) : Watched w' := by
  cases hstep with
  | stays => exact hw
  | edits path file => exact hw.same (fun _ h _ => h) fun _ _ hp => Or.inl hp
  | installs path object => exact hw.same (fun _ h _ => h) fun _ _ hp => Or.inl hp
  | addsIf name => exact hw.same (fun _ h _ => h) fun _ _ hp => Or.inl hp
  | removesIf ifindex len overrun hlen hfits =>
      refine hw.broadcast _ (by rfl) fun link hlink => ?_
      by_cases hif : link.ifindex = ifindex
      · refine Or.inr fun queue => ?_
        rw [hif]
        exact linkMonitorSawDellink_notice hlen hfits queue
      · refine Or.inl (List.mem_filter.mpr ⟨hlink, ?_⟩)
        simpa using hif
  | notices msgs overrun => exact hw.broadcast w rfl fun link hlink => Or.inl hlink
  | attachesForeign ifindex hfree =>
      exact hw.same (fun link hlink _ => List.mem_append_left _ hlink) fun _ _ hp => Or.inl hp
  | detachesForeign id =>
      refine hw.same (fun link hlink howner => ?_) fun _ _ hp => Or.inl hp
      exact List.mem_filter.mpr ⟨hlink, by simp [howner]⟩
  | signals pid sig p hp =>
      exact hw.kept hp (p.signal_linksKept w.kernel w.files sig) (p.signal_socket w.files sig)
  | stopsUnpin pid sig u hu => exact hw.same (fun _ h _ => h) fun _ _ hp => Or.inl hp
  | startsAttach pid environ confPath hnone =>
      refine hw.same (fun _ h _ => h) fun other p hp => ?_
      by_cases hother : other = pid
      · subst hother
        have hstart := Option.some.inj ((Function.update_self other _ w.attaches).symm.trans hp)
        rw [← hstart]
        exact Or.inr ⟨rfl, rfl⟩
      · exact Or.inl ((Function.update_of_ne hother _ w.attaches).symm.trans hp)
  | startsUnpin pid environ confPath => exact hw.same (fun _ h _ => h) fun _ _ hp => Or.inl hp
  | runsAttach pid a p r hp hcall =>
      rcases hcall.links with hkept | hmade
      · exact hw.kept hp hkept hcall.socket
      · exact hw.made hp hmade
  | runsUnpin pid a u r hnone hu hcall =>
      refine hw.same (fun link hlink _ => ?_) fun _ _ hp => Or.inl hp
      rw [hcall.links]
      exact hlink

theorem World.Boot.attached (hboot : w.Boot) (acts : List Act) :
    Links (w.run score acts) ∧ Watched (w.run score acts) := by
  refine List.foldlRecOn (motive := fun w => Links w ∧ Watched w) acts (World.step score)
    ⟨hboot.links, hboot.watched⟩ fun w hw act _ => ?_
  have hstep := w.step_step score act
  exact ⟨hstep.links hw.1, hstep.watched hw.2⟩

/-- The next message that process `pid` looks at ends it with `EXIT_NOT_ATTACHED`. -/
def World.Leaves (score : UInt64 → Nat → S) (w : World) (pid : Nat) : Prop :=
  ∀ a, a.ok = true → a.netlink = true →
    ∃ p, (w.step score (.run pid a)).attaches pid = some p ∧ p.pc = .exited (some exitNotAttached)

theorem Watched.leaves (hw : Watched w) {pid : Nat} {p : AttachProc}
    (hp : w.attaches pid = some p) (hpc : p.pc = .serving) (hmissed : p.missed = false)
    (hgone : ¬∃ link ∈ w.kernel.links, p.Holds pid link) : w.Leaves score pid := by
  intro a hok hnetlink
  have hholds : p.pc.holds = true := by
    rw [hpc]
    rfl
  have hsaw := (hw.noticed pid p hp hholds hmissed).resolve_left hgone
  have hsock := hw.told pid p hp hmissed
  have hcall : (attachCall score w.kernel w.files pid p a).2 = p.exit (some exitNotAttached) := by
    simp only [attachCall, hpc, serveOnce, hok, hnetlink, hsock, Bool.true_eq_false,
      Bool.false_eq_true, if_false, if_true]
    split
    · rfl
    · next hnone =>
        rw [hnone] at hsaw
        cases hsaw
  refine ⟨p.exit (some exitNotAttached), ?_, rfl⟩
  simp only [World.step, hp]
  rw [World.setAttach_self, hcall]

end

/-! ## A loader on a host -/

namespace Sample

def bpfObject : BpfObject := ⟨some (cstr "0.1.0"), fun _ => 0, true⟩

def bootWorld : World where
  kernel := ⟨[(2, cstr "eth0")], 3, [], 1, fun _ _ => none, 0, fun _ => ⟨bpfObject, []⟩,
    fun _ => Maps.fresh⟩
  files := ⟨fun _ => some bpfObject, fun _ => ⟨0, confFile⟩⟩
  attaches _ := none
  unpins _ := none

theorem bootWorld_boot : bootWorld.Boot where
  attaches _ := rfl
  unpins _ := rfl
  pins _ _ := rfl
  foreign := nofun
  distinct := List.nodup_nil

def calmProbe : ProbeHost := ⟨true, fun _ => true, fun _ => true⟩

def blindProbe : ProbeHost := { calmProbe with prog := false }

def goAhead : Answers := ⟨true, true, true, true, none, none, confHost, calmEnv, calmProbe, false⟩

def ethEnviron : Environ := ⟨some (cstr "eth0"), none, none⟩

def attachFor (pid n : Nat) : List Act :=
  .attach pid ethEnviron none :: List.replicate n (.run pid goAhead)

def unplugged : List Act := attachFor 0 27 ++ [.removeIf 2 32 []]

end Sample

section

variable {w : World} {S : Type} [LinearOrder S] {score : UInt64 → Nat → S}

/--
However loaders, signals and interfaces interleave: each XDP link of the loader's program has
a process that is alive and holds it, and a serving process whose link is gone leaves with
`EXIT_NOT_ATTACHED` when it next reads its netlink socket, if the kernel had room for every
message to it.
-/
theorem attached_or_gone (hboot : w.Boot) (acts : List Act) :
    (∀ link ∈ (w.run score acts).kernel.links, link.prog ≠ none →
      ∃ pid p, (w.run score acts).attaches pid = some p ∧ p.Holds pid link) ∧
    ∀ pid p, (w.run score acts).attaches pid = some p → p.pc = .serving →
      p.missed = false →
        (∃ link ∈ (w.run score acts).kernel.links, p.Holds pid link) ∨
          (w.run score acts).Leaves score pid := by
  have hrun : Links (w.run score acts) ∧ Watched (w.run score acts) := hboot.attached acts
  obtain ⟨hlinks, hwatched⟩ := hrun
  refine ⟨fun link hlink hprog => ?_, fun pid p hp hpc hmissed => ?_⟩
  · cases howner : link.owner with
    | none => exact absurd (hlinks.foreign link hlink howner) hprog
    | some pid =>
        obtain ⟨p, hp, hplink⟩ := hlinks.owned link hlink pid howner
        exact ⟨pid, p, hp, hplink⟩
  · by_cases hgone : ∃ link ∈ (w.run score acts).kernel.links, p.Holds pid link
    · exact Or.inl hgone
    · exact Or.inr (hwatched.leaves hp hpc hmissed hgone)

theorem attached_or_gone_unplugged :
    (Sample.bootWorld.run Sample.score Sample.unplugged).Leaves Sample.score 0 := by
  have hend : ((Sample.bootWorld.run Sample.score Sample.unplugged).attaches 0).map
      (fun p => (p.pc, p.missed)) = some (.serving, false) ∧
        (Sample.bootWorld.run Sample.score Sample.unplugged).kernel.links = [] := by
    decide +kernel
  obtain ⟨p, hp, hstate⟩ := Option.map_eq_some_iff.mp hend.1
  have hserves := (attached_or_gone Sample.bootWorld_boot
    Sample.unplugged).2 0 p hp (congrArg Prod.fst hstate) (congrArg Prod.snd hstate)
  refine hserves.resolve_left ?_
  rw [hend.2]
  rintro ⟨link, hlink, -⟩
  cases hlink

/-! ## What `--status` reports -/

/-- A process serves the interface with the program that is pinned. -/
def World.Serves (w : World) (pinDir : CBuf) (ifindex : Nat) : Prop :=
  ∃ pid p, w.attaches pid = some p ∧ p.cfg.ifindex = ifindex ∧
    w.kernel.pins pinDir .prog = some p.own ∧ ∃ link ∈ w.kernel.links, p.Holds pid link

namespace ProbeHost

/-- The calls whose failure the probe keeps to itself succeed. -/
structure Sees (h : ProbeHost) : Prop where
  prog : h.prog = true
  info : ∀ id, h.info id = true

structure Calm (h : ProbeHost) : Prop extends h.Sees where
  next : ∀ id, h.next id = true

/-- From the link of identifier `id` on, the enumeration comes to a link of the interface that
can be read. -/
structure Finds (h : ProbeHost) (ifindex id : Nat) (links : List XdpLink) (link : XdpLink) :
    Prop where
  mem : link ∈ links
  here : link.ifindex = ifindex
  read : h.info link.id = true
  reached : ∀ i ∈ id :: (links.takeWhile (·.ifindex ≠ ifindex)).map XdpLink.id, h.next i = true

/-- The enumeration comes to its end, and no link of the interface can be read. -/
structure Misses (h : ProbeHost) (ifindex id : Nat) (links : List XdpLink) : Prop where
  unread : ∀ link ∈ links, link.ifindex = ifindex → h.info link.id = false
  reached : ∀ i ∈ id :: links.map XdpLink.id, h.next i = true

end ProbeHost

section

variable {h : ProbeHost} {pinned : Option Nat} {ifindex id code : Nat} {link : XdpLink}
  {links : List XdpLink}

theorem ProbeHost.Misses.probeLinks (hmiss : h.Misses ifindex id links) :
    probeLinks h pinned ifindex id links = .ok exitNotAttached := by
  induction links generalizing id with
  | nil =>
      have hnext : h.next id = true := hmiss.reached id List.mem_cons_self
      simp only [Marlin.probeLinks, hnext, if_true]
  | cons first rest ih =>
      have hnext : h.next id = true := hmiss.reached id List.mem_cons_self
      have hskip : h.info first.id = false ∨ first.ifindex ≠ ifindex := by
        by_cases hif : first.ifindex = ifindex
        · exact Or.inl (hmiss.unread first List.mem_cons_self hif)
        · exact Or.inr hif
      simp only [Marlin.probeLinks, hnext, Bool.true_eq_false, if_false, if_pos hskip]
      exact ih ⟨fun link hlink => hmiss.unread link (List.mem_cons_of_mem first hlink),
        fun i hi => hmiss.reached i (List.mem_cons_of_mem id hi)⟩

theorem ProbeHost.Finds.probeLinks (hfinds : h.Finds ifindex id links link)
    (hdistinct : (links.map XdpLink.ifindex).Nodup) :
    probeLinks h pinned ifindex id links =
      .ok (if pinned = none ∨ link.prog ≠ pinned then exitForeign else exitAttached) := by
  induction links generalizing id with
  | nil => exact absurd hfinds.mem List.not_mem_nil
  | cons first rest ih =>
      have hnext : h.next id = true := hfinds.reached id List.mem_cons_self
      simp only [Marlin.probeLinks, hnext, Bool.true_eq_false, if_false]
      obtain ⟨hfirst, hrest⟩ := List.nodup_cons.mp hdistinct
      rcases List.mem_cons.mp hfinds.mem with rfl | hmem
      · rw [if_neg (not_or.mpr ⟨by simp [hfinds.read], not_not.mpr hfinds.here⟩)]
        split <;> rfl
      · have hne : first.ifindex ≠ ifindex := by
          intro hif
          refine hfirst (hif ▸ hfinds.here ▸ List.mem_map_of_mem hmem)
        rw [if_pos (Or.inr hne)]
        refine ih ⟨hmem, hfinds.here, hfinds.read, fun i hi => hfinds.reached i ?_⟩ hrest
        rw [List.takeWhile_cons_of_pos (by simpa using hne)]
        exact List.mem_cons_of_mem id hi

theorem ProbeHost.Misses.cons {first : XdpLink} {rest : List XdpLink} (hnext : h.next id = true)
    (hskip : first.ifindex = ifindex → h.info first.id = false)
    (hmiss : h.Misses ifindex first.id rest) : h.Misses ifindex id (first :: rest) := by
  refine ⟨?_, by simpa [hnext] using hmiss.reached⟩
  rintro link hlink hif
  rcases List.mem_cons.mp hlink with rfl | hlink
  · exact hskip hif
  · exact hmiss.unread link hlink hif

theorem ProbeHost.Finds.cons {first : XdpLink} {rest : List XdpLink} (hnext : h.next id = true)
    (hother : first.ifindex ≠ ifindex) (hfinds : h.Finds ifindex first.id rest link) :
    h.Finds ifindex id (first :: rest) link := by
  refine ⟨List.mem_cons_of_mem first hfinds.mem, hfinds.here, hfinds.read, ?_⟩
  rw [List.takeWhile_cons_of_pos (by simpa using hother)]
  simpa [hnext] using hfinds.reached

theorem probeLinks_ok (hdistinct : (links.map XdpLink.ifindex).Nodup)
    (hok : probeLinks h pinned ifindex id links = .ok code) :
    h.Misses ifindex id links ∨ ∃ link, h.Finds ifindex id links link := by
  induction links generalizing id with
  | nil =>
      simp only [probeLinks] at hok
      split at hok
      · next hnext => exact Or.inl ⟨nofun, by simpa using hnext⟩
      · cases hok
  | cons first rest ih =>
      obtain ⟨hfirst, hrest⟩ := List.nodup_cons.mp hdistinct
      simp only [probeLinks] at hok
      split at hok
      · cases hok
      next hnext =>
      rw [Bool.not_eq_false] at hnext
      by_cases hif : first.ifindex = ifindex
      · by_cases hinfo : h.info first.id = false
        · -- the interface has no other link
          rw [if_pos (Or.inl hinfo)] at hok
          rcases ih hrest hok with hmiss | ⟨link, hfinds⟩
          · exact Or.inl (hmiss.cons hnext fun _ => hinfo)
          · refine absurd ?_ hfirst
            rw [hif, ← hfinds.here]
            exact List.mem_map_of_mem hfinds.mem
        · refine Or.inr ⟨first, List.mem_cons_self, hif, by simpa using hinfo, ?_⟩
          rw [List.takeWhile_cons_of_neg (by simpa using hif)]
          simpa using hnext
      · rw [if_pos (Or.inr hif)] at hok
        rcases ih hrest hok with hmiss | ⟨link, hfinds⟩
        · exact Or.inl (hmiss.cons hnext fun hsame => absurd hsame hif)
        · exact Or.inr ⟨link, hfinds.cons hnext hif⟩

end

theorem ProbeHost.Calm.finds {h : ProbeHost} (hcalm : h.Calm) {links : List XdpLink}
    {link : XdpLink} (hlink : link ∈ links) : h.Finds link.ifindex 0 links link where
  mem := hlink
  here := rfl
  read := hcalm.info link.id
  reached i _ := hcalm.next i

theorem ProbeHost.Calm.misses_iff {h : ProbeHost} (hcalm : h.Calm) {ifindex : Nat}
    {links : List XdpLink} :
    h.Misses ifindex 0 links ↔ ∀ link ∈ links, link.ifindex ≠ ifindex := by
  constructor
  · intro hmiss link hlink hif
    exact absurd (hmiss.unread link hlink hif) (by simp [hcalm.info link.id])
  · intro hfree
    exact ⟨fun link hlink hif => absurd hif (hfree link hlink), fun i _ => hcalm.next i⟩

theorem Links.serves_iff (hw : Links w) {link : XdpLink} (hlink : link ∈ w.kernel.links)
    (pinDir : CBuf) :
    w.Serves pinDir link.ifindex ↔
      w.kernel.pins pinDir .prog ≠ none ∧ link.prog = w.kernel.pins pinDir .prog := by
  constructor
  · rintro ⟨pid, p, -, hif, hpinned, other, hother, hplink⟩
    obtain rfl : other = link :=
      List.inj_on_of_nodup_map hw.distinct hother hlink (hplink.ifindex.trans hif)
    rw [hpinned]
    exact ⟨Option.some_ne_none _, hplink.prog⟩
  · rintro ⟨hpinned, hprog⟩
    cases howner : link.owner with
    | none => exact absurd (hprog.symm.trans (hw.foreign link hlink howner)) hpinned
    | some pid =>
        obtain ⟨p, hp, hplink⟩ := hw.owned link hlink pid howner
        exact ⟨pid, p, hp, hplink.ifindex.symm, hprog.symm.trans hplink.prog, link, hlink, hplink⟩

theorem Links.attachProbe_finds (hw : Links w) {h : ProbeHost} {ifindex : Nat} {link : XdpLink}
    (hfinds : h.Finds ifindex 0 w.kernel.links link) (pinDir : CBuf) :
    (w.Serves pinDir ifindex ∧ h.prog = true →
      attachProbe h w.kernel pinDir ifindex = .ok exitAttached) ∧
    (¬(w.Serves pinDir ifindex ∧ h.prog = true) →
      attachProbe h w.kernel pinDir ifindex = .ok exitForeign) := by
  have hserves := hw.serves_iff hfinds.mem pinDir
  rw [hfinds.here] at hserves
  simp only [attachProbe, hfinds.probeLinks hw.distinct]
  refine ⟨fun hboth => ?_, fun hnot => ?_⟩
  · obtain ⟨hpinned, hprog⟩ := hserves.mp hboth.1
    simp only [hboth.2, if_true]
    rw [if_neg (not_or.mpr ⟨hpinned, not_not.mpr hprog⟩)]
  · refine congrArg Except.ok (if_pos ?_)
    by_contra hneither
    obtain ⟨hpinned, hprog⟩ := not_or.mp hneither
    rw [not_not] at hprog
    cases hread : h.prog with
    | false =>
        rw [hread] at hpinned
        exact hpinned rfl
    | true =>
        rw [hread] at hpinned hprog
        exact hnot ⟨hserves.mpr ⟨hpinned, hprog⟩, hread⟩

theorem Links.attachProbe_ok (hw : Links w) {h : ProbeHost} {pinDir : CBuf} {ifindex code : Nat}
    (hok : attachProbe h w.kernel pinDir ifindex = .ok code) :
    h.Misses ifindex 0 w.kernel.links ∧ code = exitNotAttached ∨
      ∃ link, h.Finds ifindex 0 w.kernel.links link := by
  rcases probeLinks_ok hw.distinct hok with hmiss | hfinds
  · exact Or.inl ⟨hmiss, Except.ok.inj (hok.symm.trans hmiss.probeLinks)⟩
  · exact Or.inr hfinds

theorem Links.attachProbe_sees (hw : Links w) {h : ProbeHost} (hsees : h.Sees) {pinDir : CBuf}
    {ifindex code : Nat} (hserves : w.Serves pinDir ifindex)
    (hok : attachProbe h w.kernel pinDir ifindex = .ok code) : code = exitAttached := by
  rcases hw.attachProbe_ok hok with ⟨hmiss, -⟩ | ⟨link, hfinds⟩
  · obtain ⟨pid, p, -, hif, -, link, hlink, hplink⟩ := hserves
    have hunread := hmiss.unread link hlink (hplink.ifindex.trans hif)
    rw [hsees.info link.id] at hunread
    cases hunread
  · have hattached := (hw.attachProbe_finds hfinds pinDir).1 ⟨hserves, hsees.prog⟩
    exact Except.ok.inj (hok.symm.trans hattached)

/-- The three answers of the probe; it dies where the enumeration breaks off before. -/
theorem Links.attachProbe (hw : Links w) (h : ProbeHost) (pinDir : CBuf) (ifindex : Nat) :
    (attachProbe h w.kernel pinDir ifindex = .ok exitAttached ↔
      w.Serves pinDir ifindex ∧ h.prog = true ∧ ∃ link, h.Finds ifindex 0 w.kernel.links link) ∧
    (attachProbe h w.kernel pinDir ifindex = .ok exitNotAttached ↔
      h.Misses ifindex 0 w.kernel.links) ∧
    (attachProbe h w.kernel pinDir ifindex = .ok exitForeign ↔
      ¬(w.Serves pinDir ifindex ∧ h.prog = true) ∧
        ∃ link, h.Finds ifindex 0 w.kernel.links link) := by
  have hcodes : exitAttached ≠ exitNotAttached ∧ exitForeign ≠ exitNotAttached ∧
      exitForeign ≠ exitAttached := by decide
  have hok : ∀ {code : Nat}, Marlin.attachProbe h w.kernel pinDir ifindex = .ok code →
      code ≠ exitNotAttached → ∃ link, h.Finds ifindex 0 w.kernel.links link :=
    fun hprobe hcode => (hw.attachProbe_ok hprobe).resolve_left fun hmiss => hcode hmiss.2
  refine ⟨⟨fun hprobe => ?_, ?_⟩, ⟨fun hprobe => ?_, fun hmiss => hmiss.probeLinks⟩,
    ⟨fun hprobe => ?_, ?_⟩⟩
  · obtain ⟨link, hfinds⟩ := hok hprobe hcodes.1
    by_contra hnot
    have hforeign := (hw.attachProbe_finds hfinds pinDir).2 fun hboth =>
      hnot ⟨hboth.1, hboth.2, link, hfinds⟩
    exact hcodes.2.2 (Except.ok.inj (hforeign.symm.trans hprobe))
  · rintro ⟨hserves, hprog, link, hfinds⟩
    exact (hw.attachProbe_finds hfinds pinDir).1 ⟨hserves, hprog⟩
  · rcases hw.attachProbe_ok hprobe with hmiss | ⟨link, hfinds⟩
    · exact hmiss.1
    · by_cases hboth : w.Serves pinDir ifindex ∧ h.prog = true
      · have hattached := (hw.attachProbe_finds hfinds pinDir).1 hboth
        exact absurd (Except.ok.inj (hattached.symm.trans hprobe)) hcodes.1
      · have hforeign := (hw.attachProbe_finds hfinds pinDir).2 hboth
        exact absurd (Except.ok.inj (hforeign.symm.trans hprobe)) hcodes.2.1
  · obtain ⟨link, hfinds⟩ := hok hprobe hcodes.2.1
    refine ⟨fun hboth => ?_, link, hfinds⟩
    have hattached := (hw.attachProbe_finds hfinds pinDir).1 hboth
    exact hcodes.2.2 (Except.ok.inj (hprobe.symm.trans hattached))
  · rintro ⟨hnot, link, hfinds⟩
    exact (hw.attachProbe_finds hfinds pinDir).2 hnot

end

end Marlin
