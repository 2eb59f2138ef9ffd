import Marlin.Marlind.ReconcileSuccess

/-!
# Reconciles on a host that does what it is asked

Where the interfaces stay as they are and a map operation fails only for want of room, a
reconcile fails only for want of room too, and what it leaves behind does not depend on
what it found, but for the numbers of the blocks.
-/

namespace Marlin

open Marlin.Library Marlin.Library.Table

/-! ## The host -/

structure Interfaces where
  nametoindex : CBuf → Nat
  mtu : CBuf → Except Errno Int

/-- The answers of the host are those of its interface table. -/
structure Env.On (e : Env) (ifs : Interfaces) : Prop where
  nametoindex : ∀ n name, e.nametoindex n name = ifs.nametoindex name
  socket : ∀ n, e.socket n = none
  mtu : ∀ n iface, e.mtu n iface = ifs.mtu iface

def Interfaces.txPorts (ifs : Interfaces) (conf : MarlinConf) : List Nat :=
  conf.inst.txPorts.map ifs.nametoindex

def Interfaces.maxFrame (ifs : Interfaces) (conf : MarlinConf) : Nat :=
  if conf.inst.maxFrameSet = true then conf.inst.maxFrame
  else (frameOf none (ifs.mtu conf.inst.iface)).getD 0

def Interfaces.FrameKnown (ifs : Interfaces) (conf : MarlinConf) : Prop :=
  conf.inst.maxFrameSet = true ∨ anyBackendEncapsulates conf = false ∨
    frameOf none (ifs.mtu conf.inst.iface) ≠ none

structure Interfaces.Suits (ifs : Interfaces) (conf : MarlinConf) : Prop where
  txPorts : ∀ name ∈ conf.inst.txPorts, ifs.nametoindex name ≠ 0
  maxFrame : conf.inst.maxFrameSet = true ∨ anyBackendEncapsulates conf = false ∨
    frameOf none (ifs.mtu conf.inst.iface) ≠ none

/-- No map operation of a reconcile fails, other than for want of room. -/
structure Env.OnlyFull (e : Env) (conf : MarlinConf) : Prop where
  calm : e.Calm
  ofConf : ∀ b ∈ conf.backends, BackendKeys.layout.ofConf b < maxBackends
  ofId : ∀ n id, id < maxBackends → BackendKeys.layout.ofId (e.stack n) id < maxBackends

/-- Every map that grows before it shrinks has room for its old and its new entries. -/
structure Interfaces.Room (ifs : Interfaces) (conf : MarlinConf) (start : Maps) : Prop where
  txPorts : Fits start.txPorts (txPairs (ifs.txPorts conf)) maxTxPorts
  allowV4 : Fits start.aclAllowV4 (aclPairs wantAclV4 conf.acl.allowV4) maxAclEntries
  blockV4 : Fits start.aclBlockV4 (aclPairs wantAclV4 conf.acl.blockV4) maxAclEntries
  allowV6 : Fits start.aclAllowV6 (aclPairs wantAclV6 conf.acl.allowV6) maxAclEntries
  blockV6 : Fits start.aclBlockV6 (aclPairs wantAclV6 conf.acl.blockV6) maxAclEntries

structure Env.Answers (e : Env) (ifs : Interfaces) : Prop where
  nametoindex : ∀ n name, e.nametoindex n name = ifs.nametoindex name
  derives : ∀ iface answer, e.Derives iface answer → answer = frameOf none (ifs.mtu iface)

theorem Env.On.answers {e : Env} {ifs : Interfaces} (h : e.On ifs) : e.Answers ifs where
  nametoindex := h.nametoindex
  derives := by
    rintro iface answer ⟨n, m, rfl⟩
    rw [h.socket, h.mtu]

namespace Env.Answers

variable {e : Env} {ifs : Interfaces} (h : e.Answers ifs) {conf : MarlinConf}

include h

theorem maxFrame {maxFrame : Nat} (hframe : e.Frames conf maxFrame) :
    maxFrame = ifs.maxFrame conf := by
  rw [Env.Frames] at hframe
  rw [Interfaces.maxFrame]
  split
  · rename_i hset
    rwa [if_pos hset] at hframe
  · rename_i hunset
    rw [if_neg hunset] at hframe
    rcases hframe with hderived | ⟨hnone, -, hzero⟩
    · rw [← h.derives _ _ hderived]
      rfl
    · rw [← h.derives _ _ hnone, hzero]
      rfl

theorem frameSettles (hknown : ifs.FrameKnown conf) : e.FrameSettles conf := by
  rcases hknown with hset | hplain | hderived
  · exact Or.inl hset
  · exact Or.inr (Or.inl hplain)
  · exact Or.inr (Or.inr fun hnone => hderived (h.derives _ _ hnone).symm)

theorem resolves_eq {names : List CBuf} {want : List Nat} (hwant : e.Resolves names want) :
    want = names.map ifs.nametoindex := by
  induction hwant with
  | nil => rfl
  | cons hhead hrest ih =>
      obtain ⟨-, n, hindex⟩ := hhead
      rw [h.nametoindex] at hindex
      rw [List.map_cons, ← ih, hindex]

theorem resolves_ne_zero {names : List CBuf} {want : List Nat} (hwant : e.Resolves names want) :
    ∀ name ∈ names, ifs.nametoindex name ≠ 0 := by
  induction hwant with
  | nil => simp
  | cons hhead hrest ih =>
      obtain ⟨hne, n, hindex⟩ := hhead
      rw [h.nametoindex] at hindex
      exact List.forall_mem_cons.mpr ⟨hindex ▸ hne, ih⟩

end Env.Answers

theorem MarlinConf.Accepted.feasible {conf : MarlinConf} (hconf : conf.Accepted) {e : Env}
    {ifs : Interfaces} (hifs : e.Answers ifs) (hfull : e.OnlyFull conf) (hsuits : ifs.Suits conf)
    {start : Maps} (hstart : start.Bounded) (hroom : ifs.Room conf start) :
    Feasible e .layout conf start where
  smooth := hfull.calm.smooth
  readable := hstart.vips.readable
  canonical := hstart.vips.canonical
  count := hconf.vips_length
  alloc := hconf.allocates hstart.vips
  frame := hifs.frameSettles hsuits.maxFrame
  resolves := by
    intro name hname n
    rw [hifs.nametoindex]
    exact hsuits.txPorts name hname
  txPorts := by
    intro want hwant _
    rw [hifs.resolves_eq hwant]
    exact hroom.txPorts
  allowV4 _ := hroom.allowV4
  blockV4 _ := hroom.blockV4
  allowV6 _ := hroom.allowV6
  blockV6 _ := hroom.blockV6
  ofConf := hfull.ofConf
  steady _ m id hid _ := hfull.ofId m id hid

/-! ## What a reconcile leaves behind -/

def MarlinConf.vipPairs (conf : MarlinConf) (num : Nat → Nat) : List (VipKey × VipMeta) :=
  (conf.withNums num).vips.flatMap fun vip => vip.keys.map fun key => (key, vip.vipMeta)

/-- The maps hold the configuration, with block `num i` for entry `i`, and nothing else. -/
structure Carries {S : Type} [LinearOrder S] (score : UInt64 → Nat → S) (ifs : Interfaces)
    (conf : MarlinConf) (num : Nat → Nat) (mp : Maps) : Prop where
  num_lt : ∀ i < conf.vips.length, num i < maxVips
  num_inj : ∀ i < conf.vips.length, ∀ j < conf.vips.length, num i = num j → i = j
  vipMap : Holds (conf.vipPairs num) mp.vipMap
  rows : ∀ i vip, conf.vips[i]? = some vip → ∀ row < tableSize,
    mp.fwdRow (num i) row = fwdGenBlock score vip.tableSeed (genMembers conf vip) row
  config : mp.config = configValue conf (aclListsBits conf.acl) (ifs.maxFrame conf)
  txPorts : Holds (txPairs (ifs.txPorts conf)) mp.txPorts
  allowV4 : Holds (aclPairs wantAclV4 conf.acl.allowV4) mp.aclAllowV4
  blockV4 : Holds (aclPairs wantAclV4 conf.acl.blockV4) mp.aclBlockV4
  allowV6 : Holds (aclPairs wantAclV6 conf.acl.allowV6) mp.aclAllowV6
  blockV6 : Holds (aclPairs wantAclV6 conf.acl.blockV6) mp.aclBlockV6

theorem wanted_vipPairs (conf : MarlinConf) (num : Nat → Nat) :
    wanted (conf.vipPairs num) = conf.keys := by
  rw [wanted, MarlinConf.vipPairs, List.map_flatMap, ← conf.withNums_keys num, MarlinConf.keys]
  simp [Function.comp_def]

theorem MarlinConf.Accepted.keys_nodup {conf : MarlinConf} (h : conf.Accepted) :
    conf.keys.Nodup := by
  refine h.keysDistinct.imp fun hne heq => ?_
  rw [heq, vipKeyEq_refl] at hne
  cases hne

section

variable {S : Type} [LinearOrder S] {score : UInt64 → Nat → S} {ifs : Interfaces}
  {conf : MarlinConf} (hconf : conf.Accepted)

include hconf

theorem Applied.holds_vipMap {num : Nat → Nat} {mp : Maps}
    (h : Applied score (conf.withNums num) mp) (hcanon : mp.KeysCanonical) :
    Holds (conf.vipPairs num) mp.vipMap := by
  intro key
  have hnodup : (wanted (conf.vipPairs num)).Nodup := by
    rw [wanted_vipPairs]
    exact hconf.keys_nodup
  refine Option.ext fun vipMeta => ?_
  rw [lastValue_eq_some hnodup, MarlinConf.vipPairs, List.mem_flatMap]
  constructor
  · intro hlookup
    obtain ⟨vip, hvip, hkey, rfl, -⟩ :=
      h.settled key vipMeta (hcanon key vipMeta hlookup) hlookup
    exact ⟨vip, hvip, List.mem_map_of_mem hkey⟩
  · rintro ⟨vip, hvip, hpair⟩
    obtain ⟨key', hkey, heq⟩ := List.mem_map.mp hpair
    cases heq
    exact h.published vip hvip key hkey

theorem MarlinConf.Accepted.carries {e : Env} (hifs : e.Answers ifs) (hcalm : e.Calm) (n : Nat)
    {start : Maps} (hstart : start.Bounded) {out : MarlinConf}
    (hout : (reconcileApply score .layout conf e n start).result = some out) :
    Carries score ifs conf (vipAlloc (conf.vips.map ConfVip.keys) start.baseline).num
      (reconcileApply score .layout conf e n start).store := by
  have hkeys := BackendKeys.layout_sound
  have hmeets := hconf.meets score hkeys e n start
  obtain ⟨hfwd, haside⟩ := hmeets.finished out hout
  obtain ⟨-, hdone⟩ := hfwd hcalm.smooth.honest
  have hcanon := (hconf.bounded score hkeys e n hstart).vips.canonical
  have hcomplete : Complete e start := ⟨hcalm.enumerates, hstart.aside⟩
  have hplan := vipAlloc_planned hconf.keysDistinct (hconf.allocates hstart.vips)
  have hentry : ∀ i < conf.vips.length, ∃ vip, (conf.assigned start).vips[i]? = some vip ∧
      vip.vipMeta.vipNum = (vipAlloc (conf.vips.map ConfVip.keys) start.baseline).num i := by
    intro i hi
    exact ⟨_, MarlinConf.withNums_getElem?.mpr ⟨_, List.getElem?_eq_getElem hi, rfl⟩, rfl⟩
  refine
    { num_lt := ?_
      num_inj := ?_
      vipMap := hdone.applied.holds_vipMap hconf hcanon
      rows := ?_
      config := ?_
      txPorts := ?_
      allowV4 := haside.allowV4.holds hcomplete
      blockV4 := haside.blockV4.holds hcomplete
      allowV6 := haside.allowV6.holds hcomplete
      blockV6 := haside.blockV6.holds hcomplete }
  · intro i hi
    obtain ⟨vip, hvip, hnum⟩ := hentry i hi
    rw [← hnum]
    exact hplan.num_lt vip (List.mem_of_getElem? hvip)
  · intro i hi j hj heq
    obtain ⟨vip, hvip, hnum⟩ := hentry i hi
    obtain ⟨other, hother, hnum'⟩ := hentry j hj
    exact hplan.num_inj i j vip other hvip hother (by rw [hnum, hnum', heq])
  · intro i vip hvip row hrow
    have hplaced : (conf.assigned start).vips[i]? = some (vip.withNum _) :=
      MarlinConf.withNums_getElem?.mpr ⟨vip, hvip, rfl⟩
    exact hdone.applied.rows _ (List.mem_of_getElem? hplaced) row hrow
  · obtain ⟨maxFrame, hframe, hvalue⟩ := haside.config
    rw [hvalue, hifs.maxFrame hframe]
  · obtain ⟨want, hwant, hholds, -⟩ := haside.txPorts
    rw [Interfaces.txPorts, ← hifs.resolves_eq hwant]
    exact hholds hcomplete

end

/-! ## Room for two configurations -/

structure Interfaces.FitsBoth (ifs : Interfaces) (first second : MarlinConf) : Prop where
  txPorts : ((ifs.txPorts first).toFinset ∪ (ifs.txPorts second).toFinset).card ≤ maxTxPorts
  allowV4 : ((first.acl.allowV4.map wantAclV4).toFinset ∪
    (second.acl.allowV4.map wantAclV4).toFinset).card ≤ maxAclEntries
  blockV4 : ((first.acl.blockV4.map wantAclV4).toFinset ∪
    (second.acl.blockV4.map wantAclV4).toFinset).card ≤ maxAclEntries
  allowV6 : ((first.acl.allowV6.map wantAclV6).toFinset ∪
    (second.acl.allowV6.map wantAclV6).toFinset).card ≤ maxAclEntries
  blockV6 : ((first.acl.blockV6.map wantAclV6).toFinset ∪
    (second.acl.blockV6.map wantAclV6).toFinset).card ≤ maxAclEntries

section

variable {S : Type} [LinearOrder S] {score : UInt64 → Nat → S} {ifs : Interfaces}
  {first second conf : MarlinConf} {num : Nat → Nat} {start : Maps} {e : Env}

theorem Carries.lookup_iff (h : Carries score ifs conf num start) (hconf : conf.Accepted)
    {key : VipKey} {vipMeta : VipMeta} :
    start.vipMap.lookup key = some vipMeta ↔ ∃ (i : Nat) (vip : ConfVip),
      conf.vips[i]? = some vip ∧ key ∈ vip.keys ∧ vipMeta = (vip.withNum (num i)).vipMeta := by
  have hnodup : (wanted (conf.vipPairs num)).Nodup := by
    rw [wanted_vipPairs]
    exact hconf.keys_nodup
  rw [h.vipMap key, lastValue_eq_some hnodup, MarlinConf.vipPairs, List.mem_flatMap]
  constructor
  · rintro ⟨placed, hplaced, hpair⟩
    obtain ⟨i, vip, hi, rfl⟩ := MarlinConf.mem_withNums.mp hplaced
    obtain ⟨key', hkey, heq⟩ := List.mem_map.mp hpair
    cases heq
    exact ⟨i, vip, hi, hkey, rfl⟩
  · rintro ⟨i, vip, hi, hkey, rfl⟩
    exact ⟨_, MarlinConf.mem_withNums.mpr ⟨i, vip, hi, rfl⟩, List.mem_map_of_mem hkey⟩

theorem Carries.bounded (h : Carries score ifs conf num start) (hconf : conf.Accepted) :
    start.Bounded := by
  have hrow : ∀ key vipMeta, start.vipMap.lookup key = some vipMeta →
      key ∈ conf.keys ∧ vipMeta.vipNum < maxVips := by
    intro key vipMeta hlookup
    obtain ⟨i, vip, hi, hkey, rfl⟩ := (h.lookup_iff hconf).mp hlookup
    refine ⟨List.mem_flatMap.mpr ⟨vip, List.mem_of_getElem? hi, hkey⟩, ?_⟩
    exact h.num_lt i (List.getElem?_eq_some_iff.mp hi).1
  have hlen : ∀ {K : Type} [DecidableEq K] {want : ConfAclEntry → K}
      {entries : List ConfAclEntry} {t : Table K Nat}, Holds (aclPairs want entries) t →
      entries.length ≤ maxAclEntries → t.keys.length ≤ maxAclEntries := by
    intro K _ want entries t hholds hentries
    refine Nat.le_trans hholds.length_le ?_
    simpa [aclPairs] using hentries
  obtain ⟨hallowV4, hblockV4, hallowV6, hblockV6⟩ := hconf.acl_length
  refine ⟨⟨fun key vipMeta hlookup => ?_, ⟨?_, fun b hb => ?_⟩⟩,
    ⟨?_, hlen h.allowV4 hallowV4, hlen h.blockV4 hblockV4, hlen h.allowV6 hallowV6,
      hlen h.blockV6 hblockV6⟩⟩
  · exact hconf.keysCanonical key (hrow key vipMeta hlookup).1
  · rw [← List.toFinset_card_of_nodup start.vipMap.keys_nodup, h.vipMap.keys_toFinset,
      wanted_vipPairs]
    exact Nat.le_trans (List.toFinset_card_le _) hconf.valid.key_count
  · obtain ⟨vipMeta, hlookup, hnum⟩ := Maps.mem_baseline.mp hb
    rw [← hnum]
    exact (hrow b.key vipMeta hlookup).2
  · refine Nat.le_trans h.txPorts.length_le ?_
    simpa [txPairs, Interfaces.txPorts] using hconf.txPorts_length

theorem Carries.room_iff (h : Carries score ifs first num start) :
    ifs.Room second start ↔ ifs.FitsBoth first second := by
  have hacl : ∀ {K : Type} [DecidableEq K] {want : ConfAclEntry → K}
      {entries new : List ConfAclEntry} {t : Table K Nat}, Holds (aclPairs want entries) t →
      (Fits t (aclPairs want new) maxAclEntries ↔
        ((entries.map want).toFinset ∪ (new.map want).toFinset).card ≤ maxAclEntries) := by
    intro K _ want entries new t hholds
    rw [Fits, hholds.keys_toFinset, wanted_aclPairs, wanted_aclPairs]
  have hports : Fits start.txPorts (txPairs (ifs.txPorts second)) maxTxPorts ↔
      ((ifs.txPorts first).toFinset ∪ (ifs.txPorts second).toFinset).card ≤ maxTxPorts := by
    rw [Fits, h.txPorts.keys_toFinset, wanted_txPairs, wanted_txPairs]
  constructor
  · rintro ⟨h1, h2, h3, h4, h5⟩
    exact ⟨hports.mp h1, (hacl h.allowV4).mp h2, (hacl h.blockV4).mp h3,
      (hacl h.allowV6).mp h4, (hacl h.blockV6).mp h5⟩
  · rintro ⟨h1, h2, h3, h4, h5⟩
    exact ⟨hports.mpr h1, (hacl h.allowV4).mpr h2, (hacl h.blockV4).mpr h3,
      (hacl h.allowV6).mpr h4, (hacl h.blockV6).mpr h5⟩

theorem MarlinConf.Accepted.room (hconf : conf.Accepted) (hifs : e.Answers ifs) (n : Nat)
    (hstart : start.Bounded) {out : MarlinConf}
    (hout : (reconcileApply score .layout conf e n start).result = some out) :
    ifs.Room conf start := by
  have hmeets := hconf.meets score BackendKeys.layout_sound e n start
  have haside := (hmeets.finished out hout).2
  obtain ⟨want, hwant, -, hfits⟩ := haside.txPorts
  rw [hifs.resolves_eq hwant] at hfits
  exact ⟨hfits hstart.aside.txPorts, haside.allowV4.fits hstart.aside.aclAllowV4,
    haside.blockV4.fits hstart.aside.aclBlockV4, haside.allowV6.fits hstart.aside.aclAllowV6,
    haside.blockV6.fits hstart.aside.aclBlockV6⟩

end

/--
Where operations fail only for want of room, the reload of one accepted configuration over
another goes through exactly when their ports and their rules fit together.
-/
theorem reconcileApply_isSome_iff {S : Type} [LinearOrder S] (score : UInt64 → Nat → S)
    {first second : MarlinConf} (hfirst : first.Accepted) (hsecond : second.Accepted)
    {ifs : Interfaces} {num : Nat → Nat} {start : Maps}
    (hstart : Carries score ifs first num start) {e : Env} (hon : e.On ifs)
    (hfull : e.OnlyFull second) (hsuits : ifs.Suits second) (n : Nat) :
    (reconcileApply score .layout second e n start).result.isSome = true ↔
      ifs.FitsBoth first second := by
  have hbounded := hstart.bounded hfirst
  rw [← hstart.room_iff]
  constructor
  · intro hsome
    obtain ⟨out, hout⟩ := Option.isSome_iff_exists.mp hsome
    exact hsecond.room hon.answers n hbounded hout
  · intro hroom
    rw [hsecond.returns score BackendKeys.layout_sound e n
      (hsecond.feasible hon.answers hfull hsuits hbounded hroom)]
    rfl

namespace Sample

def portNames : List CBuf := (List.range maxTxPorts).map fun i => [112, UInt8.ofNat (65 + i)]

def portsToml (names : List CBuf) : Toml :=
  fileToml [tunnelSrc, ("tx_ports", .array (names.map .string))] []

def fullConf : MarlinConf :=
  loadFile (file (portsToml portNames) (by decide +kernel)) (by decide +kernel)

def otherConf : MarlinConf :=
  loadFile (file (portsToml [cstr "q"]) (by decide +kernel)) (by decide +kernel)

theorem fullConf_accepted : fullConf.Accepted := loadFile_accepted _ _

theorem otherConf_accepted : otherConf.Accepted := loadFile_accepted _ _

theorem fullConf_holds : fullConf.inst.txPorts = portNames ∧
    fullConf.acl = ⟨true, [], [], [], []⟩ ∧
    (∀ b ∈ fullConf.backends, BackendKeys.layout.ofConf b < maxBackends) ∧
    fullConf.inst.iface = cstr "eth0" := by
  decide +kernel

theorem otherConf_holds : otherConf.inst.txPorts = [cstr "q"] ∧
    otherConf.acl = ⟨true, [], [], [], []⟩ ∧
    ∀ b ∈ otherConf.backends, BackendKeys.layout.ofConf b < maxBackends := by
  decide +kernel

def ifaces : Interfaces where
  nametoindex name := name.foldl (fun index byte => index * 256 + byte.toNat) 0
  mtu _ := .ok 1500

def ifacesEnv : Env := { calmEnv with nametoindex := fun _ => ifaces.nametoindex }

theorem ifacesEnv_on : ifacesEnv.On ifaces := ⟨fun _ _ => rfl, fun _ => rfl, fun _ _ => rfl⟩

theorem ifacesEnv_onlyFull {conf : MarlinConf}
    (hkeys : ∀ b ∈ conf.backends, BackendKeys.layout.ofConf b < maxBackends) :
    ifacesEnv.OnlyFull conf := by
  refine ⟨⟨fun _ => rfl, fun _ _ => rfl, fun _ => rfl, fun _ => rfl, fun _ => rfl⟩, hkeys, ?_⟩
  intro n id hid
  exact (BackendKeys.layout_ofId_zero hid).trans_lt hid

theorem ifaces_maxFrame (iface : CBuf) : frameOf none (ifaces.mtu iface) ≠ none := by
  change (if (1500 : Int) < 0 ∨ 1500 + ethHlen > 0xffff then none else some _) ≠ none
  rw [if_neg (by decide)]
  exact Option.some_ne_none _

theorem fullConf_suits : ifaces.Suits fullConf := by
  refine ⟨?_, Or.inr (Or.inr (ifaces_maxFrame _))⟩
  rw [fullConf_holds.1]
  decide +kernel

theorem otherConf_suits : ifaces.Suits otherConf := by
  refine ⟨?_, Or.inr (Or.inr (ifaces_maxFrame _))⟩
  rw [otherConf_holds.1]
  decide

theorem not_fitsBoth_full : ¬ifaces.FitsBoth fullConf otherConf := by
  intro h
  have hports := h.txPorts
  rw [Interfaces.txPorts, Interfaces.txPorts, fullConf_holds.1, otherConf_holds.1] at hports
  exact absurd hports (by decide +kernel)

def fullMaps : Maps :=
  afterAttempts score .layout Maps.fresh [⟨ifacesEnv, fullConf, fullConf_accepted⟩]

theorem fullMaps_carries : ∃ num, Carries score ifaces fullConf num fullMaps := by
  obtain ⟨hports, hacl, hkeys, -⟩ := fullConf_holds
  have hroom : ifaces.Room fullConf Maps.fresh := by
    refine ⟨fits_of_length ?_, ?_, ?_, ?_, ?_⟩
    · rw [Interfaces.txPorts, hports]
      decide +kernel
    all_goals
      rw [hacl]
      exact fits_acl (by decide)
  have hout := fullConf_accepted.returns score BackendKeys.layout_sound ifacesEnv 0
    (fullConf_accepted.feasible ifacesEnv_on.answers (ifacesEnv_onlyFull hkeys) fullConf_suits
      Maps.fresh_bounded hroom)
  have hcarries := fullConf_accepted.carries ifacesEnv_on.answers
    (ifacesEnv_onlyFull hkeys).calm 0 Maps.fresh_bounded hout
  rw [fullMaps, afterAttempts_one]
  exact ⟨_, hcarries⟩

end Sample

theorem reconcileApply_isSome_iff_full :
    (reconcileApply Sample.score .layout Sample.otherConf Sample.ifacesEnv 0
      Sample.fullMaps).result.isSome = true ↔
        Sample.ifaces.FitsBoth Sample.fullConf Sample.otherConf := by
  obtain ⟨num, hcarries⟩ := Sample.fullMaps_carries
  exact reconcileApply_isSome_iff Sample.score Sample.fullConf_accepted Sample.otherConf_accepted
    hcarries Sample.ifacesEnv_on (Sample.ifacesEnv_onlyFull Sample.otherConf_holds.2.2)
    Sample.otherConf_suits 0

/-- The new port does not fit beside the 64 old ones, which are only removed later. -/
theorem not_reconcileApply_isSome_full :
    ¬∀ first second : MarlinConf, first.Accepted → second.Accepted →
      ∀ (ifs : Interfaces) (num : Nat → Nat) (start : Maps),
      Carries Sample.score ifs first num start → ∀ e : Env, e.On ifs → e.OnlyFull second →
      ifs.Suits second →
      (reconcileApply Sample.score .layout second e 0 start).result.isSome = true := by
  intro h
  obtain ⟨num, hcarries⟩ := Sample.fullMaps_carries
  have hsome := h Sample.fullConf Sample.otherConf Sample.fullConf_accepted
    Sample.otherConf_accepted Sample.ifaces num Sample.fullMaps hcarries Sample.ifacesEnv
    Sample.ifacesEnv_on (Sample.ifacesEnv_onlyFull Sample.otherConf_holds.2.2)
    Sample.otherConf_suits
  obtain ⟨out, hout⟩ := Option.isSome_iff_exists.mp hsome
  exact Sample.not_fitsBoth_full (hcarries.room_iff.mp (Sample.otherConf_accepted.room
    Sample.ifacesEnv_on.answers 0 (hcarries.bounded Sample.fullConf_accepted) hout))

end Marlin
