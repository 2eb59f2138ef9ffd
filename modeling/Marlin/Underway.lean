import Marlin.Filtering
import Marlin.Marlind.ReconcileAgain
import Marlin.Marlind.ReconcileOn
import Marlin.Racing

/-!
# Reloads under way

What the reads of a packet can find while a reload is under way, or was stopped anywhere,
and that reads that find the same before and after a reload find it at every moment of it.
-/

namespace Marlin

open Marlin.Library Marlin.Library.Table

/-! ## The moments of a run -/

/-- A state that a run from `start` passes: the start, or what some write leaves. -/
def Moment (start : Maps) (steps : List (Maps × Maps)) (mp : Maps) : Prop :=
  mp = start ∨ ∃ step ∈ steps, mp = step.2

theorem Moment.invariant {start mp : Maps} {steps : List (Maps × Maps)} {last : Maps}
    (hmoment : Moment start steps mp) (hlinked : Linked start steps last)
    {R : Maps → Maps → Prop} (hsteps : ∀ p ∈ steps, R p.1 p.2) {I : Maps → Prop}
    (hI : ∀ s t, R s t → I s → I t) (hstart : I start) : I mp := by
  rcases hmoment with rfl | ⟨step, hstep, rfl⟩
  · exact hstart
  · exact ((hlinked.invariant hsteps hI hstart).2 step hstep).2

theorem Moment.last {start last : Maps} {steps : List (Maps × Maps)}
    (hlinked : Linked start steps last) : Moment start steps last := by
  induction steps generalizing start with
  | nil => exact Or.inl hlinked.symm
  | cons step steps ih =>
      rcases ih hlinked.2 with rfl | ⟨later, hlater, heq⟩
      · exact Or.inr ⟨step, List.mem_cons_self, rfl⟩
      · exact Or.inr ⟨later, List.mem_cons_of_mem _ hlater, heq⟩

/-! ## What a read can find -/

section Steps

variable {S : Type} [LinearOrder S] {score : UInt64 → Nat → S} {ifs : Interfaces}
  {conf placed : MarlinConf} {start held s t : Maps}

theorem OnStep.config_cases (hstep : OnStep ifs conf s t)
    (h : s.config = start.config ∨ ∃ lists, s.config = configValue conf lists (ifs.maxFrame conf)) :
    t.config = start.config ∨
      ∃ lists, t.config = configValue conf lists (ifs.maxFrame conf) := by
  rcases hstep.config with hsame | hnew
  · rwa [hsame]
  · exact Or.inr hnew

structure PortsBetween (want : List Nat) (start mp : Maps) : Prop where
  sub : ∀ ifindex ∈ mp.txPorts, ifindex ∈ start.txPorts ∨ ifindex ∈ want
  kept : ∀ ifindex ∈ start.txPorts, ifindex ∈ want → ifindex ∈ mp.txPorts

theorem PortsBetween.refl (want : List Nat) (start : Maps) : PortsBetween want start start :=
  ⟨fun _ h => Or.inl h, fun _ h _ => h⟩

theorem OnStep.portsBetween (hstep : OnStep ifs conf s t)
    (h : PortsBetween (ifs.txPorts conf) start s) : PortsBetween (ifs.txPorts conf) start t := by
  rcases hstep.txPorts with hsame | ⟨slot, new, hnew, hadd⟩ | ⟨gone, hgone, hdrop⟩
  · constructor
    · rw [hsame]
      exact h.sub
    · rw [hsame]
      exact h.kept
  · constructor
    · intro ifindex hmem
      rw [hadd, mem_update] at hmem
      rcases hmem with rfl | hmem
      · exact Or.inr hnew
      · exact h.sub ifindex hmem
    · intro ifindex hold hwant
      rw [hadd, mem_update]
      exact Or.inr (h.kept ifindex hold hwant)
  · constructor
    · intro ifindex hmem
      rw [hdrop, mem_erase_iff] at hmem
      exact h.sub ifindex hmem.2
    · intro ifindex hold hwant
      rw [hdrop, mem_erase_iff]
      exact ⟨fun heq => hgone (heq ▸ hwant), h.kept ifindex hold hwant⟩

theorem ReloadStep.lookup_cases (hheld : Applied score placed held)
    (hstep : ReloadStep score placed s t) {key : VipKey} (hkey : key.Canonical)
    (h : s.vipMap.lookup key = start.vipMap.lookup key ∨
      s.vipMap.lookup key = held.vipMap.lookup key) :
    t.vipMap.lookup key = start.vipMap.lookup key ∨
      t.vipMap.lookup key = held.vipMap.lookup key := by
  cases hstep with
  | dropKey dropped hdropped ht =>
      subst ht
      by_cases heq : key = dropped
      · right
        subst heq
        have hnone : held.vipMap.lookup key = none := by
          cases hlookup : held.vipMap.lookup key with
          | none => rfl
          | some vipMeta =>
              obtain ⟨vip, hvip, hown, -, -⟩ := hheld.settled key vipMeta hkey hlookup
              exact absurd (List.mem_flatMap.mpr ⟨vip, hvip, hown⟩) hdropped
        rw [hnone]
        exact AList.lookup_erase _ _
      · change (s.vipMap.erase dropped).lookup key = _ ∨ (s.vipMap.erase dropped).lookup key = _
        rwa [AList.lookup_erase_ne heq]
  | publish vip pub slot hvip hpub hfilled hrows ht =>
      subst ht
      change (s.vipMap.update slot pub vip.vipMeta).lookup key = _ ∨
        (s.vipMap.update slot pub vip.vipMeta).lookup key = _
      rw [lookup_update]
      by_cases heq : key = pub
      · right
        rw [if_pos heq, heq, hheld.published vip hvip pub hpub]
      · rwa [if_neg heq]
  | fill b slot ifindex hb hslot ht => exact ht ▸ h
  | writeRow vip row hvip hrow hfilled howned ht => exact ht ▸ h
  | zeroRow num row hrow hfree ht => exact ht ▸ h
  | retire id hid hcur hsettled ht => exact ht ▸ h
  | aside hvipMap hfwdTable hbackends => rwa [hvipMap]

theorem OnStep.slot_steady (hon : OnStep ifs conf s t) (hstep : ReloadStep score placed s t)
    (hvalid : placed.IdsValid) (hconf : conf.backends = placed.backends)
    (hheld : held.BackendsOn ifs conf.backends)
    (hretired : Retired placed (List.range' 1 (maxBackends - 1)) held) {id : Nat}
    (hid : id ≠ marlinNoBackend) (hlt : id < maxBackends)
    (hsame : held.backends id = start.backends id) (h : s.backends id = start.backends id) :
    t.backends id = start.backends id := by
  rcases hon.backends with hkept | ⟨b, hb, hkey, hfill⟩ | ⟨gone, hzero⟩
  · rw [hkept, h]
  · have hvalue := hheld b hb
    rw [hconf] at hb
    rw [(BackendKeys.layout_sound.ofConf b (hvalid.id_lt b hb)).resolve_right (by omega)] at hfill
    by_cases heq : id = b.id
    · rw [hfill, heq, Function.update_self, ← hvalue, ← heq, hsame]
    · rw [hfill, Function.update_of_ne heq, h]
  · by_cases heq : id = gone
    · -- the zero went to this very slot: only a retired slot is zeroed
      rcases hstep.backends_cases hvalid with
        hkept | ⟨b, -, ifindex, hfill⟩ | ⟨other, hno, hown, hz⟩
      · rw [hkept, h]
      · by_cases hb : id = b.id
        · have hzero' : t.backends id = 0 := by rw [hzero, heq, Function.update_self]
          have hvalue : t.backends id = backendValue b ifindex := by
            rw [hfill, hb, Function.update_self]
          have hids : (0 : Backend).id = b.id := by
            rw [← hzero', hvalue]
            rfl
          exact absurd (hb.trans hids.symm) hid
        · rw [hfill, Function.update_of_ne hb, h]
      · by_cases hother : id = other
        · subst hother
          have hmem : id ∈ List.range' 1 (maxBackends - 1) := by
            rw [List.mem_range'_1]
            simp only [marlinNoBackend, maxBackends] at *
            omega
          rw [h, ← hsame] at hown
          exact absurd hown (hretired id hmem hno)
        · rw [hz, Function.update_of_ne hother, h]
    · rw [hzero, Function.update_of_ne heq, h]

end Steps

/--
What holds at every moment of a reload from `start` to `conf` that leaves `held` behind where
it goes through: each map entry is the old one or the new one.
-/
structure Underway {S : Type} [LinearOrder S] (score : UInt64 → Nat → S) (ifs : Interfaces)
    (conf placed : MarlinConf) (start held mp : Maps) : Prop where
  config : mp.config = start.config ∨
    ∃ lists, mp.config = configValue conf lists (ifs.maxFrame conf)
  ports : PortsBetween (ifs.txPorts conf) start mp
  rules : AclInv conf start mp
  lookup : ∀ key : VipKey, key.Canonical → mp.vipMap.lookup key = start.vipMap.lookup key ∨
    mp.vipMap.lookup key = held.vipMap.lookup key
  rows : AliasSafe score placed start mp
  slots : ∀ id, id ≠ marlinNoBackend → id < maxBackends →
    held.backends id = start.backends id → mp.backends id = start.backends id

/-- The maps after a reconcile of `conf` from `start` in which nothing failed. -/
structure Completed {S : Type} [LinearOrder S] (score : UInt64 → Nat → S) (ifs : Interfaces)
    (conf : MarlinConf) (start held : Maps) : Prop where
  carries : Carries score ifs conf (vipAlloc (conf.vips.map ConfVip.keys) start.baseline).num held
  applied : Applied score (conf.assigned start) held
  retired : Retired conf (List.range' 1 (maxBackends - 1)) held
  backends : held.BackendsOn ifs conf.backends
  slots : ∀ id, (∀ b ∈ conf.backends, b.id ≠ id) → (start.backends id).id ≠ id →
    held.backends id = start.backends id

section

variable {S : Type} [LinearOrder S] {score : UInt64 → Nat → S} {ifs : Interfaces}
  {conf : MarlinConf} {num : Nat → Nat} {start held : Maps}

theorem Carries.rulesApplied (h : Carries score ifs conf num start) : RulesApplied conf start where
  config := ⟨_, h.config⟩
  allowV4 k := by rw [h.allowV4.mem_iff, wanted_aclPairs]
  blockV4 k := by rw [h.blockV4.mem_iff, wanted_aclPairs]
  allowV6 k := by rw [h.allowV6.mem_iff, wanted_aclPairs]
  blockV6 k := by rw [h.blockV6.mem_iff, wanted_aclPairs]

theorem Carries.mem_txPorts (h : Carries score ifs conf num start) (ifindex : Nat) :
    ifindex ∈ start.txPorts ↔ ifindex ∈ ifs.txPorts conf := by
  rw [h.txPorts.mem_iff, wanted_txPairs]

theorem MarlinConf.Accepted.completed (hconf : conf.Accepted) {e : Env} (hon : e.On ifs)
    (hfull : e.OnlyFull conf) (n : Nat) (hstart : start.Bounded) {out : MarlinConf}
    (hout : (reconcileApply score .layout conf e n start).result = some out) :
    Completed score ifs conf start (reconcileApply score .layout conf e n start).store := by
  have hmeets := hconf.meets score BackendKeys.layout_sound e n start
  have hhonest := hfull.calm.smooth.honest
  obtain ⟨-, hdone⟩ := (hmeets.finished out hout).1 hhonest
  have hvalid : (conf.assigned start).IdsValid := (hconf.checked.withNums _).idsValid
  refine
    { carries := hconf.carries hon.answers hfull.calm n hstart hout
      applied := hdone.applied
      retired := hdone.retired hfull.faithful
      backends :=
        (reconcileApply_backendsOn score hon.answers hconf hfull hstart n _ rfl).finished _ hout
      slots := fun id hno hown => ?_ }
  refine (hmeets.linked.invariant (R := ReloadStep score (conf.assigned start))
    (I := fun s => s.backends id = start.backends id)
    (fun p hp => (hmeets.steps p hp).forward hhonest) (fun s t hst hs => ?_) rfl).1
  rw [hst.slot_kept hvalid hno (by rwa [hs]), hs]

theorem MarlinConf.Accepted.underway (hconf : conf.Accepted) {e : Env} (hon : e.On ifs)
    (hhonest : e.Honest) (n : Nat) (hheld : Completed score ifs conf start held) {mp : Maps}
    (hmoment : Moment start (reconcileApply score .layout conf e n start).steps mp) :
    Underway score ifs conf (conf.assigned start) start held mp := by
  have hmeets := hconf.meets score BackendKeys.layout_sound e n start
  have hwrites : Writes e (OnStep ifs conf) (reconcileApply score .layout conf) :=
    reconcileApply_on hon score
  have hvalues := hwrites n start trivial
  have hdistinct := MarlinConf.assigned_keysDistinct hconf.keysDistinct start
  have hcanon : ∀ key ∈ (conf.assigned start).keys, key.Canonical := by
    rw [MarlinConf.assigned_keys]
    exact hconf.keysCanonical
  have hvalid : (conf.assigned start).IdsValid := (hconf.checked.withNums _).idsValid
  have hforward : ∀ p ∈ (reconcileApply score .layout conf e n start).steps,
      ReloadStep score (conf.assigned start) p.1 p.2 :=
    fun p hp => (hmeets.steps p hp).forward hhonest
  refine ⟨?_, ?_, ?_, fun key hkey => ?_, ?_, fun id hid hlt hsame => ?_⟩
  · exact hmoment.invariant hmeets.linked hvalues.steps (fun s t hst => hst.config_cases)
      (Or.inl rfl)
  · exact hmoment.invariant hmeets.linked hvalues.steps (fun s t hst => hst.portsBetween)
      (.refl _ _)
  · exact hmoment.invariant hmeets.linked (fun p hp => (hmeets.steps p hp).aside)
      (fun s t hst => hst.aclInv) (.refl _ _)
  · exact hmoment.invariant hmeets.linked hforward
      (fun s t hst => hst.lookup_cases hheld.applied hkey) (Or.inl rfl)
  · exact hmoment.invariant hmeets.linked hforward
      (fun s t hst => hst.aliasSafe hdistinct hcanon) (.refl _ _ _)
  · exact hmoment.invariant hmeets.linked
      (R := fun s t => OnStep ifs conf s t ∧ ReloadStep score (conf.assigned start) s t)
      (fun p hp => ⟨hvalues.steps p hp, hforward p hp⟩)
      (fun s t hst => hst.1.slot_steady hst.2 hvalid rfl hheld.backends hheld.retired hid hlt hsame)
      rfl

end

/-! ## Reads that are the same before and after -/

section

variable {S : Type} [LinearOrder S] {score : UInt64 → Nat → S} {ifs : Interfaces}
  {conf first second placed : MarlinConf} {num : Nat → Nat} {start held mp : Maps}
  {seen : Moments}

/-- The tries as two lookups at different moments find them, under the bits of a third. -/
def aclSeen (seen : Moments) : Maps :=
  { seen .aclAllow with
    config := (seen .config).config
    aclBlockV4 := (seen .aclBlock).aclBlockV4
    aclBlockV6 := (seen .aclBlock).aclBlockV6 }

theorem aclSeen_hit (hseen : ∀ r, AclInv second start (seen r))
    (hstart : RulesApplied first start) (hheld : RulesApplied second held) (src : Addr)
    (list : AclList) (family : AclFamily) :
    ((aclSeen seen).aclHit src list family = true →
      start.aclHit src list family = true ∨ held.aclHit src list family = true) ∧
    (start.aclHit src list family = true → held.aclHit src list family = true →
      (aclSeen seen).aclHit src list family = true) := by
  obtain ⟨r, hlookup⟩ : ∃ r, (aclSeen seen).aclLookup src list family =
      (seen r).aclLookup src list family := by
    cases list <;> cases family
    · exact ⟨.aclAllow, rfl⟩
    · exact ⟨.aclAllow, rfl⟩
    · exact ⟨.aclBlock, rfl⟩
    · exact ⟨.aclBlock, rfl⟩
  obtain ⟨hsub, hfull⟩ := (hseen r).between.lookup src list family
  rw [hstart.lookup] at hsub hfull
  rw [Maps.aclHit, hlookup, hstart.hit, hheld.hit]
  constructor
  · intro hhit
    exact hsub (Bool.and_elim_right hhit)
  · intro hold hnew
    have hbit : (aclSeen seen).config.aclLists &&& aclListsBit list family ≠ 0 := by
      rcases hseen .config with ⟨hsame, -⟩ | ⟨⟨lists, maxFrame, hbits, hvalue⟩, -⟩
      · obtain ⟨maxFrame, hvalue⟩ := hstart.config
        change (seen .config).config.aclLists &&& _ ≠ 0
        rw [hsame, hvalue]
        exact ConfAcl.covers_bit hold
      · change (seen .config).config.aclLists &&& _ ≠ 0
        rw [hvalue]
        exact hbits list family (ConfAcl.covers_bit hnew)
    rw [hfull hold hnew, Bool.and_true]
    simpa using hbit

theorem aclSeen_verdict (hseen : ∀ r, AclInv second start (seen r))
    (hstart : RulesApplied first start) (hheld : RulesApplied second held)
    (hflags : (seen .config).config.flags = start.config.flags)
    (hflags' : held.config.flags = start.config.flags) {pkt : MarlinCtx}
    (hsame : held.aclVerdict pkt = start.aclVerdict pkt) :
    (aclSeen seen).aclVerdict pkt = start.aclVerdict pkt := by
  have hflags : (aclSeen seen).config.flags = start.config.flags := hflags
  rw [Maps.aclVerdict_eq, Maps.aclVerdict_eq, hflags'] at hsame
  rw [Maps.aclVerdict_eq, Maps.aclVerdict_eq, hflags]
  split
  · rfl
  · next hon =>
    rw [if_neg hon, if_neg hon] at hsame
    cases hfamily : pkt.tuple.aclFamily with
    | none => rfl
    | some family =>
        simp only [hfamily] at hsame ⊢
        obtain ⟨hallow, hallow'⟩ := aclSeen_hit hseen hstart hheld pkt.tuple.src .allow family
        obtain ⟨hblock, hblock'⟩ := aclSeen_hit hseen hstart hheld pkt.tuple.src .block family
        exact verdictOf_steady _ _ _ _ _ _ hallow hallow' hblock hblock' hsame

theorem Underway.row_cases (h : Underway score ifs conf placed start held mp)
    (happlied : Applied score placed held) {key : VipKey} (hkey : key.Canonical)
    {old new : VipMeta} (hold : start.vipMap.lookup key = some old)
    (hnew : held.vipMap.lookup key = some new) (hnum : new.vipNum = old.vipNum) {row : Nat}
    (hrow : row < tableSize) :
    mp.fwdRow old.vipNum row = start.fwdRow old.vipNum row ∨
      mp.fwdRow old.vipNum row = held.fwdRow new.vipNum row := by
  obtain ⟨owner, howner, hown, -, hrows⟩ := happlied.settled key new hkey hnew
  have hlive : ∃ vip, mp.vipMap.lookup key = some vip ∧ vip.vipNum = old.vipNum := by
    rcases h.lookup key hkey with hlookup | hlookup
    · exact ⟨old, hlookup.trans hold, rfl⟩
    · exact ⟨new, hlookup.trans hnew, hnum⟩
  obtain ⟨vip, hvip, hblock⟩ := hlive
  rcases h.rows owner howner key hown vip hvip row hrow with hgen | ⟨prior, hprior, hgen⟩
  · right
    rw [← hblock, hgen, hrows row hrow]
  · left
    rw [hold] at hprior
    cases hprior
    rw [hblock] at hgen
    exact hgen

theorem SameReads.found {host : Host} {frame : Frame}
    (hsame : SameReads host frame start fun _ => held) {vip : VipMeta}
    (hvip : marlinLbSelectVip start (frame.parsed start.config) = some vip) :
    ∃ key : VipKey, key.Canonical ∧ start.vipMap.lookup key = some vip ∧
      held.vipMap.lookup key = some vip := by
  have hcanon := marlinLbVipKey_canonical (frame.parsed start.config)
  simp only [marlinLbSelectVip] at hvip
  cases hexact : start.vipMap.lookup (marlinLbVipKey (frame.parsed start.config)) with
  | some hit =>
      rw [hexact] at hvip
      cases hvip
      exact ⟨_, hcanon, hexact, (hsame.vip _ rfl).trans hexact⟩
  | none =>
      rw [hexact] at hvip
      have hcanon' : ({ marlinLbVipKey (frame.parsed start.config) with port := 0 } :
        VipKey).Canonical := hcanon
      exact ⟨_, hcanon', hvip, (hsame.anyPort _ rfl hexact).trans hvip⟩

/-- Reads that find the same before and after a reload find it all the way. -/
theorem SameReads.underway (hstart : Carries score ifs first num start)
    (hheld : Completed score ifs second start held) {host : Host} {frame : Frame}
    (hsame : SameReads host frame start fun _ => held)
    (hseen : ∀ r, Underway score ifs second (second.assigned start) start held (seen r)) :
    SameReads host frame start seen := by
  obtain ⟨final, hfinal⟩ : ∃ lists, held.config = { start.config with aclLists := lists } :=
    hsame.config
  have hvalue : ∀ r, ∃ lists, (seen r).config = { start.config with aclLists := lists } := by
    intro r
    rcases (hseen r).config with hold | ⟨lists, hnew⟩
    · exact ⟨start.config.aclLists, hold⟩
    · have hother : configValue second lists (ifs.maxFrame second) =
          { held.config with aclLists := lists } := by
        rw [hheld.carries.config]
        rfl
      exact ⟨lists, by rw [hnew, hother, hfinal]⟩
  have hcanon := marlinLbVipKey_canonical (frame.parsed start.config)
  refine
    { config := hvalue .config
      verdict := ?_
      vip := ?_
      anyPort := ?_
      quicSlot := ?_
      row := ?_
      slot := ?_
      txPort := ?_ }
  · have hraced : marlinAclCheckAt seen (frame.parsed (seen .config).config) =
        (aclSeen seen).aclVerdict (frame.parsed start.config) := by
      rw [frame.parsed_withCfg start.config]
      rfl
    have hend : held.aclVerdict (frame.parsed start.config) =
        start.aclVerdict (frame.parsed start.config) := by
      have hverdict := hsame.verdict
      rw [frame.parsed_withCfg start.config held.config,
        frame.parsed_withCfg start.config start.config] at hverdict
      exact hverdict
    obtain ⟨lists, hlists⟩ := hvalue .config
    rw [hraced, aclSeen_verdict (fun r => (hseen r).rules) hstart.rulesApplied
      hheld.carries.rulesApplied (by rw [hlists]) (by rw [hfinal]) hend, Maps.aclVerdict, ← frame.parsed_withCfg]
  · rintro key rfl
    rcases (hseen .vip).lookup _ hcanon with hold | hnew
    · exact hold
    · rw [hnew, hsame.vip _ rfl]
  · rintro key rfl hnone
    rcases (hseen .anyPort).lookup { marlinLbVipKey (frame.parsed start.config) with port := 0 }
      hcanon with hold | hnew
    · exact hold
    · rw [hnew, hsame.anyPort _ rfl hnone]
  · intro r hr vip hvip hquic hflag id hid hne hlt
    exact (hseen r).slots id hne hlt (hsame.quicSlot r hr vip hvip hquic hflag id hid hne hlt)
  · intro vip hvip hnum key hkey
    rw [hkey, marlinLbFkey_eq hnum]
    have hrow : (frame.parsed start.config).tuple.row vip < tableSize := Nat.mod_lt _ tableSize_pos
    obtain ⟨found, hfound, hold, hnew⟩ := hsame.found hvip
    have hafter := hsame.row vip hvip hnum _ rfl
    rw [marlinLbFkey_eq hnum] at hafter
    rcases (hseen .row).row_cases hheld.applied hfound hold hnew rfl hrow with hwas | hgen
    · exact hwas
    · exact hgen.trans hafter
  · intro vip hvip hnum id hid hne hlt
    exact (hseen .slot).slots id hne hlt (hsame.slot vip hvip hnum id hid hne hlt)
  · intro vip be hvip hbe query hquery
    have hend := hsame.txPort vip be hvip hbe query hquery
    rw [hheld.carries.mem_txPorts] at hend
    constructor
    · intro hmem
      exact ((hseen .txPort).ports.sub _ hmem).elim id hend.mp
    · intro hmem
      exact (hseen .txPort).ports.kept _ hmem (hend.mpr hmem)

end

/-! ## Packets that a reload does not concern -/

/-- The two outcomes are one to the network and to the counters. -/
structure SameOutcome (a b : XdpAction × Xdp) : Prop where
  action : a.1 = b.1
  frame : a.2.frame = b.2.frame
  counters : a.2.counters = b.2.counters
  buckets : a.2.buckets = b.2.buckets

theorem SameReads.sameOutcome {host : Host} {frame : Frame} {maps : Maps} {seen : Moments}
    (h : SameReads host frame maps seen) (counters : Counters) (buckets : RatelimitMap) :
    SameOutcome (xdpMainAt host seen frame counters buckets)
      (xdpMain host maps frame counters buckets) := by
  obtain ⟨lists, hraced⟩ := h.raced counters buckets
  rw [hraced]
  exact ⟨rfl, rfl, rfl, rfl⟩

end Marlin
