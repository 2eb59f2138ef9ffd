import Marlin.Marlind.AsideStep
import Marlin.Marlind.ReconcileFrame
import Marlin.Marlind.ReconcileSteps

/-!
# The whole reconcile

`reconcile_apply` from its first call to its last: every single write is an allowed
step, and what a run that returns has done to every map.  What concerns `vip_map`,
`fwd_table` and `backends` needs an honest host; the rest holds on any host.
-/

namespace Marlin

open Marlin.Library Marlin.Library.Table

theorem Kept.same {conf : MarlinConf} {start s t : Maps} (hsame : Maps.SameTables s t)
    (h : Kept conf start s) : Kept conf start t := by
  refine ⟨?_, ?_⟩
  · rw [hsame.vipMap]
    exact h.live
  · intro hstart key vipMeta hlookup
    rw [hsame.vipMap] at hlookup
    exact h.canonical hstart key vipMeta hlookup

theorem Generated.same {S : Type} [LinearOrder S] {score : UInt64 → Nat → S}
    {conf : MarlinConf} {vip : ConfVip} {num : Nat} {s t : Maps}
    (hsame : Maps.SameTables s t) (h : Generated score conf vip num s) :
    Generated score conf vip num t := by
  intro row hrow
  rw [Maps.fwdRow, hsame.fwdTable]
  exact h row hrow

theorem Applied.same {S : Type} [LinearOrder S] {score : UInt64 → Nat → S}
    {conf : MarlinConf} {s t : Maps} (hsame : Maps.SameTables s t)
    (h : Applied score conf s) : Applied score conf t := by
  refine ⟨?_, ?_, ?_, ?_⟩
  · intro hvalid b hb
    rw [hsame.backends]
    exact h.filled hvalid b hb
  · intro key vipMeta hcanon hlookup
    rw [hsame.vipMap] at hlookup
    obtain ⟨vip, hvip, hkey, heq, hrows⟩ := h.settled key vipMeta hcanon hlookup
    exact ⟨vip, hvip, hkey, heq, hrows.same hsame⟩
  · intro vip hvip key hkey
    rw [hsame.vipMap]
    exact h.published vip hvip key hkey
  · exact fun vip hvip => (h.rows vip hvip).same hsame

/-- The configuration with the blocks that a reconcile from `start` assigns. -/
def MarlinConf.assigned (conf : MarlinConf) (start : Maps) : MarlinConf :=
  conf.withNums (vipAlloc (conf.vips.map ConfVip.keys) start.baseline).num

@[simp] theorem MarlinConf.assigned_keys (conf : MarlinConf) (start : Maps) :
    (conf.assigned start).keys = conf.keys :=
  conf.withNums_keys _

/-- Nothing stands in the way of a reconcile from `start`. -/
structure Unhindered (e : Env) (keys : BackendKeys) (conf : MarlinConf) (start : Maps) :
    Prop where
  calm : e.Calm
  readable : start.Readable
  canonical : start.KeysCanonical
  count : conf.vips.length ≤ maxVips
  alloc : (vipAlloc (conf.vips.map ConfVip.keys) start.baseline).ok = true
  maxFrameSet : conf.inst.maxFrameSet = true
  txPorts : conf.inst.txPorts = []
  allowV4 : conf.acl.allowV4 = []
  blockV4 : conf.acl.blockV4 = []
  allowV6 : conf.acl.allowV6 = []
  blockV6 : conf.acl.blockV6 = []
  ofConf : ∀ b ∈ conf.backends, keys.ofConf b < maxBackends
  steady : KeysSteady e keys

structure Feasible (e : Env) (keys : BackendKeys) (conf : MarlinConf) (start : Maps) :
    Prop where
  smooth : e.Smooth
  readable : start.Readable
  canonical : start.KeysCanonical
  count : conf.vips.length ≤ maxVips
  alloc : (vipAlloc (conf.vips.map ConfVip.keys) start.baseline).ok = true
  frame : e.FrameSettles conf
  resolves : ∀ name ∈ conf.inst.txPorts, ∀ n, e.nametoindex n name ≠ 0
  txPorts : ∀ want, e.Resolves conf.inst.txPorts want → want ≠ [] →
    Fits start.txPorts (txPairs want) maxTxPorts
  allowV4 : conf.acl.allowV4 ≠ [] →
    Fits start.aclAllowV4 (aclPairs wantAclV4 conf.acl.allowV4) maxAclEntries
  blockV4 : conf.acl.blockV4 ≠ [] →
    Fits start.aclBlockV4 (aclPairs wantAclV4 conf.acl.blockV4) maxAclEntries
  allowV6 : conf.acl.allowV6 ≠ [] →
    Fits start.aclAllowV6 (aclPairs wantAclV6 conf.acl.allowV6) maxAclEntries
  blockV6 : conf.acl.blockV6 ≠ [] →
    Fits start.aclBlockV6 (aclPairs wantAclV6 conf.acl.blockV6) maxAclEntries
  ofConf : ∀ b ∈ conf.backends, keys.ofConf b < maxBackends
  steady : KeysSteady e keys

theorem Unhindered.feasible {e : Env} {keys : BackendKeys} {conf : MarlinConf} {start : Maps}
    (h : Unhindered e keys conf start) : Feasible e keys conf start where
  smooth := h.calm.smooth
  readable := h.readable
  canonical := h.canonical
  count := h.count
  alloc := h.alloc
  frame := Or.inl h.maxFrameSet
  resolves := by simp [h.txPorts]
  txPorts := by
    intro want hwant hne
    rw [h.txPorts] at hwant
    cases hwant
    exact absurd rfl hne
  allowV4 hne := absurd h.allowV4 hne
  blockV4 hne := absurd h.blockV4 hne
  allowV6 hne := absurd h.allowV6 hne
  blockV6 hne := absurd h.blockV6 hne
  ofConf := h.ofConf
  steady := h.steady

theorem Feasible.withNums {e : Env} {keys : BackendKeys} {conf : MarlinConf} {start : Maps}
    (h : Feasible e keys conf start) (num : Nat → Nat) :
    Feasible e keys (conf.withNums num) start where
  smooth := h.smooth
  readable := h.readable
  canonical := h.canonical
  count := by simpa [MarlinConf.withNums] using h.count
  alloc := by
    rw [MarlinConf.withNums_map_keys]
    exact h.alloc
  frame := h.frame
  resolves := h.resolves
  txPorts := h.txPorts
  allowV4 := h.allowV4
  blockV4 := h.blockV4
  allowV6 := h.allowV6
  blockV6 := h.blockV6
  ofConf := h.ofConf
  steady := h.steady

theorem AsideStep.of_withNums {conf : MarlinConf} {num : Nat → Nat} {s t : Maps}
    (h : AsideStep (conf.withNums num) s t) : AsideStep conf s t := by
  cases h with
  | same h => exact .same h
  | config aclLists maxFrame hbits ht => exact .config aclLists maxFrame hbits ht
  | tries hwide hconfig htxPorts hallowV4 hblockV4 hallowV6 hblockV6 =>
      exact .tries hwide hconfig htxPorts hallowV4 hblockV4 hallowV6 hblockV6
  | txPorts want table hstep ht => exact .txPorts want table hstep ht

structure Reconciled {S : Type} [LinearOrder S] (score : UInt64 → Nat → S) (e : Env)
    (keys : BackendKeys) (conf : MarlinConf) (mp : Maps) : Prop where
  applied : Applied score conf mp
  nums : ∀ vip ∈ conf.vips, vip.vipMeta.vipNum < maxVips
  retired : Faithful e keys → Retired conf (List.range' 1 (maxBackends - 1)) mp
  config : ∃ maxFrame, mp.config = configValue conf (aclListsBits conf.acl) maxFrame ∧
    (conf.inst.maxFrameSet = true → maxFrame = conf.inst.maxFrame)

/-! ## Beside the forwarding maps -/

/-- The tries and `tx_ports` are enumerated to their ends, and deletions do not lie. -/
structure Env.Enumerates (e : Env) : Prop where
  txPorts : ∀ n, e.readFault .txPorts n = none
  aclAllowV4 : ∀ n, e.readFault .aclAllowV4 n = none
  aclBlockV4 : ∀ n, e.readFault .aclBlockV4 n = none
  aclAllowV6 : ∀ n, e.readFault .aclAllowV6 n = none
  aclBlockV6 : ∀ n, e.readFault .aclBlockV6 n = none
  deletes : e.HonestDeletes

theorem Env.Calm.enumerates {e : Env} (h : e.Calm) : e.Enumerates :=
  ⟨h.reads _, h.reads _, h.reads _, h.reads _, h.reads _, h.smooth.honest.deletes⟩

structure Aside (C : MarlinConfig → Prop) (A4 B4 : Table AclKey4 Nat → Prop)
    (A6 B6 : Table AclKey6 Nat → Prop) (T : Table Nat Nat → Prop) (mp : Maps) : Prop where
  config : C mp.config
  allowV4 : A4 mp.aclAllowV4
  blockV4 : B4 mp.aclBlockV4
  allowV6 : A6 mp.aclAllowV6
  blockV6 : B6 mp.aclBlockV6
  txPorts : T mp.txPorts

theorem Aside.same {C : MarlinConfig → Prop} {A4 B4 : Table AclKey4 Nat → Prop}
    {A6 B6 : Table AclKey6 Nat → Prop} {T : Table Nat Nat → Prop} {s t : Maps}
    (h : Aside C A4 B4 A6 B6 T s) (hsame : s.SameAside t) : Aside C A4 B4 A6 B6 T t := by
  obtain ⟨h1, h2, h3, h4, h5, h6⟩ := hsame
  refine ⟨?_, ?_, ?_, ?_, ?_, ?_⟩
  · rw [h1]
    exact h.config
  · rw [h3]
    exact h.allowV4
  · rw [h4]
    exact h.blockV4
  · rw [h5]
    exact h.allowV6
  · rw [h6]
    exact h.blockV6
  · rw [h2]
    exact h.txPorts

def Complete (e : Env) (start : Maps) : Prop := e.Enumerates ∧ start.AsideBounded

def PortsSynced (e : Env) (conf : MarlinConf) (start : Maps) (table : Table Nat Nat) : Prop :=
  ∃ want, e.Resolves conf.inst.txPorts want ∧
    (Complete e start → Holds (txPairs want) table) ∧
    (start.txPorts.keys.length ≤ maxTxPorts → Fits start.txPorts (txPairs want) maxTxPorts)

/--
The tries have been brought to the lists; `C` and `T` say what is known of `config` and of
`tx_ports`.
-/
def ListsSynced (e : Env) (conf : MarlinConf) (start : Maps) (C : MarlinConfig → Prop)
    (T : Table Nat Nat → Prop) : Maps → Prop :=
  Aside C
    (Synced (Complete e start) (e.Blind .aclAllowV4) start.aclAllowV4
      (aclPairs wantAclV4 conf.acl.allowV4) maxAclEntries)
    (Synced (Complete e start) (e.Blind .aclBlockV4) start.aclBlockV4
      (aclPairs wantAclV4 conf.acl.blockV4) maxAclEntries)
    (Synced (Complete e start) (e.Blind .aclAllowV6) start.aclAllowV6
      (aclPairs wantAclV6 conf.acl.allowV6) maxAclEntries)
    (Synced (Complete e start) (e.Blind .aclBlockV6) start.aclBlockV6
      (aclPairs wantAclV6 conf.acl.blockV6) maxAclEntries) T

def AsideDone (e : Env) (conf : MarlinConf) (start : Maps) : Maps → Prop :=
  ListsSynced e conf start
    (fun value => ∃ maxFrame, e.Frames conf maxFrame ∧
      value = configValue conf (aclListsBits conf.acl) maxFrame)
    (PortsSynced e conf start)

/-- One write of a reconcile of `conf` that assigns the blocks of `placed`. -/
structure ReconcileStep {S : Type} [LinearOrder S] (score : UInt64 → Nat → S) (H : Prop)
    (conf placed : MarlinConf) (s t : Maps) : Prop where
  forward : H → ReloadStep score placed s t
  aside : AsideStep conf s t
  vips : s.VipBounded → t.VipBounded

/-! ## The phases -/

section Whole

variable {S : Type} [LinearOrder S] {score : UInt64 → Nat → S} {conf : MarlinConf}
  {start : Maps} {e : Env} {keys : BackendKeys}

theorem allocateVipNums_triple {G : Prop} {P : Maps → Prop} {R : Maps → Maps → Prop}
    {baseline : List VipAllocBaseline} (hcount : G → conf.vips.length ≤ maxVips)
    (hok : G → (vipAlloc (conf.vips.map ConfVip.keys) baseline).ok = true) :
    Triple e P (allocateVipNums conf baseline) R (fun _ => ¬G) (fun result s =>
      (result = vipAlloc (conf.vips.map ConfVip.keys) baseline ∧ result.ok = true) ∧ P s) := by
  refine Triple.ite ?_ ?_
  · intro hmany
    exact fail_triple fun s hs g => Nat.not_lt.mpr (hcount g) hmany
  · intro _
    refine Triple.ite ?_ ?_
    · intro hfailed
      exact fail_triple fun s hs g => by simp [hok g] at hfailed
    · intro hsucceeded
      exact Triple.pure fun s hs => ⟨⟨rfl, by simpa using hsucceeded⟩, hs⟩

theorem Maps.SameTables.vipBounded {s t : Maps} (hsame : s.SameTables t) (hs : s.VipBounded) :
    t.VipBounded := by
  refine ⟨?_, ?_, ?_⟩
  · intro key vipMeta hlookup
    rw [hsame.vipMap] at hlookup
    exact hs.canonical key vipMeta hlookup
  · rw [hsame.vipMap]
    exact hs.readable.count
  · rw [Maps.baseline, hsame.vipMap]
    exact hs.readable.num_lt

variable {H G : Prop} {placed : MarlinConf} {P : Maps → Prop} {I : Maps → Prop} {α : Type}
  {m : Reconcile α}

theorem ReconcileStep.of_sameTables {s t : Maps} (hsame : s.SameTables t)
    (h : AsideStep conf s t) : ReconcileStep score H conf placed s t :=
  ⟨fun _ => .aside hsame.vipMap hsame.fwdTable hsame.backends, h, hsame.vipBounded⟩

theorem fwdPhase_triple {Q : α → Maps → Prop} (hG : G → H) (hm : Only FwdWrite m)
    (h : H → Triple e P m (ReloadStep score placed) (fun _ => ¬G) Q)
    (hI : ∀ s t, s.SameAside t → I s → I t) :
    Triple e (fun s => (H → P s) ∧ I s) m (ReconcileStep score H conf placed) (fun _ => ¬G)
      (fun a s => (H → Q a s) ∧ I s) := by
  have hframe : ∀ s t, FwdWrite s t → I s → I t := fun s t hst => hI s t hst.aside
  by_cases hh : H
  · exact Triple.consequence (hm.frame (h hh) hframe) (fun s hs => ⟨hs.1 hh, hs.2⟩)
      (fun s t hst => ⟨fun _ => hst.1, .same hst.2.1.aside, hst.2.1.vips⟩) (fun s hs => hs)
      fun a s hs => ⟨fun _ => hs.1, hs.2⟩
  · exact Triple.consequence (hm.frame (hm e) hframe) (fun s hs => ⟨trivial, hs.2⟩)
      (fun s t hst => ⟨fun h => absurd h hh, .same hst.2.1.aside, hst.2.1.vips⟩)
      (fun s hs g => hh (hG g)) fun a s hs => ⟨fun h => absurd h hh, hs.2⟩

theorem baseline_triple {R : Maps → Maps → Prop} (hsmooth : G → e.Smooth)
    (hread : G → start.Readable) :
    Triple e (fun s => s = start) readVipBaseline R (fun _ => ¬G)
      (fun out s => (e.Honest → out = start.baseline) ∧ s = start) := by
  by_cases hh : e.Honest
  · exact Triple.post (readVipBaseline_triple hsmooth hh hread)
      fun out s hs => ⟨fun _ => hs.2, hs.1⟩
  · exact Triple.consequence (readVipBaseline_only.still) (fun s hs => hs) (fun _ _ h => h)
      (fun s _ g => hh (hsmooth g).honest) fun out s hs => ⟨fun h => absurd h hh, hs⟩

def Announced (conf : MarlinConf) (value : MarlinConfig) : Prop :=
  ∃ aclLists maxFrame, CoversLists conf aclLists ∧ value = configValue conf aclLists maxFrame

def PortsAdded (start : Maps) (want : List Nat) (table : Table Nat Nat) : Prop :=
  Grown start.txPorts (txPairs want) table ∧
    (start.txPorts.keys.length ≤ maxTxPorts → table.keys.length ≤ maxTxPorts)

section Tries

variable {R : Maps → Maps → Prop} (hsmooth : G → e.Smooth)
  (hP : ∀ s t, Maps.SameTables s t → P s → P t)
  (hR : ∀ s t, Maps.SameTables s t → AsideStep conf s t → R s t)

include hsmooth hP hR

/-- One trie is brought to its list; `J` says what is known, with a place for this trie. -/
private theorem trie_triple {K : Type} [DecidableEq K] (ref : TableRef K Nat)
    (href : ref.Lawful) (hmax : ref.maxEntries = maxAclEntries)
    (htables : ∀ table s, Maps.SameTables s (ref.set table s)) {D : Prop} {old : Table K Nat}
    {want : ConfAclEntry → K} {family : String} {entries : List ConfAclEntry}
    {J : (Table K Nat → Prop) → Maps → Prop}
    (hJ : ∀ A s, J A s ↔ J (fun _ => True) s ∧ A (ref.get s))
    (hset : ∀ table s, J (fun _ => True) s → J (fun _ => True) (ref.set table s))
    (hstep : ∀ table s, J (fun _ => True) s →
      SyncStep ref.maxEntries (aclPairs want entries) (ref.get s) table →
      AsideStep conf s (ref.set table s))
    (hD : D → (∀ n, e.readFault ref.name n = none) ∧ e.HonestDeletes ∧
      old.keys.length ≤ maxAclEntries)
    (hfits : G → entries ≠ [] → Fits old (aclPairs want entries) maxAclEntries) :
    Triple e (fun s => P s ∧ J (· = old) s) (reconcileAcl ref want family entries) R
      (fun _ => ¬G)
      (fun _ s => P s ∧
        J (Synced D (e.Blind ref.name) old (aclPairs want entries) maxAclEntries) s) := by
  refine Triple.consequence (reconcileAcl_triple (P := fun s => P s ∧ J (fun _ => True) s)
    ref href hmax want family hsmooth ?_ ?_ hD hfits) ?_ (fun _ _ h => h) (fun _ h => h) ?_
  · exact fun table s hs => ⟨hP s _ (htables table s) hs.1, hset table s hs.2⟩
  · exact fun table s hs h => hR s _ (htables table s) (hstep table s hs.2 h)
  · intro s hs
    obtain ⟨hrest, hold⟩ := (hJ _ s).mp hs.2
    exact ⟨⟨hs.1, hrest⟩, hold⟩
  · intro _ s hs
    exact ⟨hs.1.1, (hJ _ s).mpr ⟨hs.1.2, hs.2⟩⟩

theorem tries_triple {S : Maps → Prop} {Q : α → Maps → Prop} {k : Reconcile α}
    {C : MarlinConfig → Prop} {T : Table Nat Nat → Prop} (hS : ∀ s, ¬G → S s)
    (hC : ∀ value, C value → Announced conf value)
    (hallowV4 : G → conf.acl.allowV4 ≠ [] →
      Fits start.aclAllowV4 (aclPairs wantAclV4 conf.acl.allowV4) maxAclEntries)
    (hblockV4 : G → conf.acl.blockV4 ≠ [] →
      Fits start.aclBlockV4 (aclPairs wantAclV4 conf.acl.blockV4) maxAclEntries)
    (hallowV6 : G → conf.acl.allowV6 ≠ [] →
      Fits start.aclAllowV6 (aclPairs wantAclV6 conf.acl.allowV6) maxAclEntries)
    (hblockV6 : G → conf.acl.blockV6 ≠ [] →
      Fits start.aclBlockV6 (aclPairs wantAclV6 conf.acl.blockV6) maxAclEntries)
    (hk : Triple e (fun s => P s ∧ ListsSynced e conf start C T s) k R S Q) :
    Triple e (fun s => P s ∧ Aside C (· = start.aclAllowV4) (· = start.aclBlockV4)
        (· = start.aclAllowV6) (· = start.aclBlockV6) T s)
      (do
        reconcileAclV4 aclAllowV4Ref conf.acl.allowV4
        reconcileAclV4 aclBlockV4Ref conf.acl.blockV4
        reconcileAclV6 aclAllowV6Ref conf.acl.allowV6
        reconcileAclV6 aclBlockV6Ref conf.acl.blockV6
        k) R S Q := by
  refine Triple.bind (Triple.consequence (trie_triple (D := Complete e start) hsmooth hP hR
    aclAllowV4Ref (J := fun A => Aside C A _ _ _ _) (fun _ _ => rfl) rfl
    (fun _ _ => ⟨rfl, rfl, rfl⟩)
    (fun A s => ⟨fun h => ⟨⟨h.1, trivial, h.3, h.4, h.5, h.6⟩, h.2⟩,
      fun h => ⟨h.1.1, h.2, h.1.3, h.1.4, h.1.5, h.1.6⟩⟩)
    (fun _ _ h => ⟨h.1, trivial, h.3, h.4, h.5, h.6⟩)
    (fun _ _ h hstep => .tries (hC _ h.1) rfl rfl hstep (.same rfl) (.same rfl) (.same rfl))
    (fun hd => ⟨hd.1.aclAllowV4, hd.1.deletes, hd.2.aclAllowV4⟩) hallowV4)
    (fun _ h => h) (fun _ _ h => h) hS fun _ _ h => h) fun _ => ?_
  refine Triple.bind (Triple.consequence (trie_triple (D := Complete e start) hsmooth hP hR
    aclBlockV4Ref (J := fun A => Aside C _ A _ _ _) (fun _ _ => rfl) rfl
    (fun _ _ => ⟨rfl, rfl, rfl⟩)
    (fun A s => ⟨fun h => ⟨⟨h.1, h.2, trivial, h.4, h.5, h.6⟩, h.3⟩,
      fun h => ⟨h.1.1, h.1.2, h.2, h.1.4, h.1.5, h.1.6⟩⟩)
    (fun _ _ h => ⟨h.1, h.2, trivial, h.4, h.5, h.6⟩)
    (fun _ _ h hstep => .tries (hC _ h.1) rfl rfl (.same rfl) hstep (.same rfl) (.same rfl))
    (fun hd => ⟨hd.1.aclBlockV4, hd.1.deletes, hd.2.aclBlockV4⟩) hblockV4)
    (fun _ h => h) (fun _ _ h => h) hS fun _ _ h => h) fun _ => ?_
  refine Triple.bind (Triple.consequence (trie_triple (D := Complete e start) hsmooth hP hR
    aclAllowV6Ref (J := fun A => Aside C _ _ A _ _) (fun _ _ => rfl) rfl
    (fun _ _ => ⟨rfl, rfl, rfl⟩)
    (fun A s => ⟨fun h => ⟨⟨h.1, h.2, h.3, trivial, h.5, h.6⟩, h.4⟩,
      fun h => ⟨h.1.1, h.1.2, h.1.3, h.2, h.1.5, h.1.6⟩⟩)
    (fun _ _ h => ⟨h.1, h.2, h.3, trivial, h.5, h.6⟩)
    (fun _ _ h hstep => .tries (hC _ h.1) rfl rfl (.same rfl) (.same rfl) hstep (.same rfl))
    (fun hd => ⟨hd.1.aclAllowV6, hd.1.deletes, hd.2.aclAllowV6⟩) hallowV6)
    (fun _ h => h) (fun _ _ h => h) hS fun _ _ h => h) fun _ => ?_
  refine Triple.bind (Triple.consequence (trie_triple (D := Complete e start) hsmooth hP hR
    aclBlockV6Ref (J := fun A => Aside C _ _ _ A _) (fun _ _ => rfl) rfl
    (fun _ _ => ⟨rfl, rfl, rfl⟩)
    (fun A s => ⟨fun h => ⟨⟨h.1, h.2, h.3, h.4, trivial, h.6⟩, h.5⟩,
      fun h => ⟨h.1.1, h.1.2, h.1.3, h.1.4, h.2, h.1.6⟩⟩)
    (fun _ _ h => ⟨h.1, h.2, h.3, h.4, trivial, h.6⟩)
    (fun _ _ h hstep => .tries (hC _ h.1) rfl rfl (.same rfl) (.same rfl) (.same rfl) hstep)
    (fun hd => ⟨hd.1.aclBlockV6, hd.1.deletes, hd.2.aclBlockV6⟩) hblockV6)
    (fun _ h => h) (fun _ _ h => h) hS fun _ _ h => h) fun _ => ?_
  exact hk

private theorem applyAside_triple
    (hallowV4 : G → conf.acl.allowV4 ≠ [] →
      Fits start.aclAllowV4 (aclPairs wantAclV4 conf.acl.allowV4) maxAclEntries)
    (hblockV4 : G → conf.acl.blockV4 ≠ [] →
      Fits start.aclBlockV4 (aclPairs wantAclV4 conf.acl.blockV4) maxAclEntries)
    (hallowV6 : G → conf.acl.allowV6 ≠ [] →
      Fits start.aclAllowV6 (aclPairs wantAclV6 conf.acl.allowV6) maxAclEntries)
    (hblockV6 : G → conf.acl.blockV6 ≠ [] →
      Fits start.aclBlockV6 (aclPairs wantAclV6 conf.acl.blockV6) maxAclEntries)
    (hresolves : G → ∀ name ∈ conf.inst.txPorts, ∀ n, e.nametoindex n name ≠ 0)
    (htxPorts : G → ∀ want, e.Resolves conf.inst.txPorts want → want ≠ [] →
      Fits start.txPorts (txPairs want) maxTxPorts) :
    Triple e (fun s => P s ∧ Aside (Announced conf) (· = start.aclAllowV4)
        (· = start.aclBlockV4) (· = start.aclAllowV6) (· = start.aclBlockV6)
        (· = start.txPorts) s)
      (applyAside conf) R (fun _ => ¬G)
      (fun want s => e.Resolves conf.inst.txPorts want ∧ P s ∧
        ListsSynced e conf start (Announced conf) (PortsAdded start want) s) := by
  refine tries_triple hsmooth hP hR (fun _ h => h) (fun _ h => h) hallowV4 hblockV4 hallowV6
    hblockV6 ?_
  refine Triple.bind (resolveTxPorts_triple conf.inst.txPorts 0
    fun s _ name hname n hzero g => hresolves g name hname n hzero) fun want => ?_
  refine Triple.assume fun hwant => ?_
  refine Triple.bind (Triple.pre (addTxPorts_triple
    (P := fun s => P s ∧ ListsSynced e conf start (Announced conf) (fun _ => True) s)
    hsmooth ?_ start.txPorts ?_ fun g => htxPorts g want hwant) ?_) fun _ => ?_
  · intro table s hs
    exact ⟨hP s _ ⟨rfl, rfl, rfl⟩ hs.1, hs.2.1, hs.2.2, hs.2.3, hs.2.4, hs.2.5, trivial⟩
  · intro table s hs hstep
    exact hR s _ ⟨rfl, rfl, rfl⟩ (.txPorts want table hstep rfl)
  · intro s hs
    exact ⟨⟨hs.1, hs.2.1, hs.2.2, hs.2.3, hs.2.4, hs.2.5, trivial⟩, hs.2.6⟩
  · refine Triple.pure fun s hs => ⟨hwant, hs.1.1, ?_⟩
    exact ⟨hs.1.2.1, hs.1.2.2, hs.1.2.3, hs.1.2.4, hs.1.2.5, hs.2⟩

end Tries

private def Forwarded (score : UInt64 → Nat → S) (e : Env) (keys : BackendKeys)
    (placed : MarlinConf) (mp : Maps) : Prop :=
  Applied score placed mp ∧
    (Faithful e keys → Retired placed (List.range' 1 (maxBackends - 1)) mp)

private theorem Forwarded.same {s t : Maps} (hsame : s.SameTables t)
    (h : Forwarded score e keys placed s) : Forwarded score e keys placed t := by
  refine ⟨h.1.same hsame, fun hf id hid hno => ?_⟩
  rw [hsame.backends]
  exact h.2 hf id hid hno

private theorem writeOrder_only {plan : VipAllocPlan}
    (hcanon : ∀ key ∈ placed.keys, key.Canonical)
    (hnum : ∀ vip ∈ placed.vips, vip.vipMeta.vipNum < maxVips) :
    Only FwdWrite (plan.writeOrder |> Stepwise.forEach fun i =>
      match placed.vips[i]? with
      | none => pure ()
      | some vip => writeVip score placed vip) := by
  refine .forEach (fun i => ?_) _
  cases hvip : placed.vips[i]? with
  | none => exact .pure _
  | some vip =>
      have hmem : vip ∈ placed.vips := List.mem_of_getElem? hvip
      refine writeVip_only (fun kv _ s => .setFwd s _ _) fun key hkey s slot hroom => ?_
      exact .publish s slot (hcanon key (List.mem_flatMap.mpr ⟨vip, hmem, hkey⟩)) (hnum vip hmem)
        hroom

private theorem writeOrder_triple {plan : VipAllocPlan} (hsmooth : G → e.Smooth)
    (hplan : Planned placed plan start) (hcanon : ∀ key ∈ placed.keys, key.Canonical)
    (hstart : G → start.KeysCanonical) :
    Triple e (fun s => Kept placed start s ∧ Filled placed s)
      (plan.writeOrder |> Stepwise.forEach fun i =>
        match placed.vips[i]? with
        | none => pure ()
        | some vip => writeVip score placed vip)
      (ReloadStep score placed) (fun _ => ¬G)
      (fun _ => Progress score placed start plan.writeOrder) := by
  refine Triple.pre (Triple.forEach (J := Progress score placed start) _ ?_)
    fun s hs => hs.1.progress hs.2
  intro done i rest horder
  have hi : i < placed.vips.length := (hplan.mem_order i).mp (by simp [horder])
  have hvip := List.getElem?_eq_getElem hi
  simp only [hvip]
  exact writeVip_triple hsmooth hplan hcanon hstart horder hvip

private theorem applyMaps_triple {plan : VipAllocPlan} (hkeys : keys.Sound)
    (hsmooth : G → e.Smooth) (hplan : e.Honest → Planned placed plan start)
    (hcanon : ∀ key ∈ placed.keys, key.Canonical)
    (hnum : ∀ vip ∈ placed.vips, vip.vipMeta.vipNum < maxVips)
    (hG : G → Feasible e keys placed start) :
    Triple e (fun s => (e.Honest → Kept placed start s) ∧ Aside (Announced placed)
        (· = start.aclAllowV4) (· = start.aclBlockV4) (· = start.aclAllowV6)
        (· = start.aclBlockV6) (· = start.txPorts) s)
      (applyMaps score keys placed plan) (ReconcileStep score e.Honest placed placed)
      (fun _ => ¬G)
      (fun _ s => (e.Honest → Forwarded score e keys placed s) ∧
        ListsSynced e placed start (Announced placed) (PortsSynced e placed start) s) := by
  have hhonest : G → e.Honest := fun g => (hsmooth g).honest
  have hkept : ∀ s t, Maps.SameTables s t → (e.Honest → Kept placed start s) →
      e.Honest → Kept placed start t := fun s t hsame h hh => (h hh).same hsame
  have hstep : ∀ s t, Maps.SameTables s t → AsideStep placed s t →
      ReconcileStep score e.Honest placed placed s t := fun s t => .of_sameTables
  refine Triple.bind (applyAside_triple hsmooth hkept hstep (fun g => (hG g).allowV4)
    (fun g => (hG g).blockV4) (fun g => (hG g).allowV6) (fun g => (hG g).blockV6)
    (fun g => (hG g).resolves) fun g => (hG g).txPorts) fun want => Triple.assume fun hwant => ?_
  have hside : ∀ s t, s.SameAside t →
      ListsSynced e placed start (Announced placed) (PortsAdded start want) s →
      ListsSynced e placed start (Announced placed) (PortsAdded start want) t :=
    fun s t hsame h => Aside.same h hsame
  refine Triple.bind (fwdPhase_triple hhonest (writeBackends_only fun _ _ s => .setBackend s _ _)
    (fun _ => writeBackends_triple hsmooth hkeys fun g => (hG g).ofConf) hside) fun _ => ?_
  refine Triple.bind (fwdPhase_triple hhonest (writeOrder_only hcanon hnum)
    (fun hh => writeOrder_triple hsmooth (hplan hh) hcanon fun g => (hG g).canonical) hside)
    fun _ => ?_
  refine Triple.bind (fwdPhase_triple hhonest
    (releaseStaleVipBlocks_only _ fun _ _ _ _ s => .setFwd s _ _)
    (fun hh => releaseStaleVipBlocks_triple hsmooth (hplan hh)) hside) fun _ => ?_
  refine Triple.bind (fwdPhase_triple hhonest (retireStaleBackends_only
    fun _ => retireBackend_only fun _ _ _ s => .setBackend s _ _)
    (fun hh => Triple.pre (retireStaleBackends_triple hsmooth hkeys fun g => (hG g).steady)
      fun s hs => hs.applied (hplan hh)) hside) fun _ => ?_
  refine Triple.pre (P := fun s => (start.txPorts.keys.length ≤ maxTxPorts →
      Fits start.txPorts (txPairs want) maxTxPorts) ∧ (e.Honest → Forwarded score e keys placed s) ∧
      ListsSynced e placed start (Announced placed) (PortsAdded start want) s)
    (Triple.assume fun hfits => ?_) fun s hs => ⟨fun hlen => hs.2.6.1.fits (hs.2.6.2 hlen), hs⟩
  refine Triple.consequence (removeStaleTxPorts_triple
    (P := fun s => (e.Honest → Forwarded score e keys placed s) ∧
      ListsSynced e placed start (Announced placed) (fun _ => True) s)
    (D := Complete e start) hsmooth ?_ start.txPorts ?_
    fun hd => ⟨hd.1.txPorts, hd.1.deletes⟩) ?_ (fun _ _ h => h) (fun _ h => h) ?_
  · intro table s hs
    exact ⟨fun hh => Forwarded.same (s := s) ⟨rfl, rfl, rfl⟩ (hs.1 hh),
      ⟨hs.2.1, hs.2.2, hs.2.3, hs.2.4, hs.2.5, trivial⟩⟩
  · intro table s hs hsync
    exact hstep s _ ⟨rfl, rfl, rfl⟩ (.txPorts want table hsync rfl)
  · intro s hs
    exact ⟨⟨hs.1, ⟨hs.2.1, hs.2.2, hs.2.3, hs.2.4, hs.2.5, trivial⟩⟩, hs.2.6.1,
      fun hd => hs.2.6.2 hd.2.txPorts⟩
  · intro _ s hs
    exact ⟨hs.1.1, ⟨hs.1.2.1, hs.1.2.2, hs.1.2.3, hs.1.2.4, hs.1.2.5, want, hwant, hs.2, hfits⟩⟩

private theorem assigned_triple {plan : VipAllocPlan} {baseline : List VipAllocBaseline}
    (hkeys : keys.Sound) (hsmooth : G → e.Smooth) (hbase : e.Honest → baseline = start.baseline)
    (hplan : e.Honest → Planned placed plan start)
    (hcanon : ∀ key ∈ placed.keys, key.Canonical)
    (hnum : ∀ vip ∈ placed.vips, vip.vipMeta.vipNum < maxVips)
    (hG : G → Feasible e keys placed start) :
    Triple e (fun s => s = start)
      (do
        removeStaleVipKeys placed baseline
        let oldAclLists ← readOldAclLists
        writeConfig placed (oldAclLists ||| aclListsBits placed.acl)
        applyMaps score keys placed plan
        writeConfig placed (aclListsBits placed.acl)
        pure placed)
      (ReconcileStep score e.Honest placed placed) (fun _ => ¬G)
      (fun out s => out = placed ∧ (e.Honest → Forwarded score e keys placed s) ∧
        AsideDone e placed start s) := by
  have hstep : ∀ s t, Maps.SameTables s t → AsideStep placed s t →
      ReconcileStep score e.Honest placed placed s t := fun s t => .of_sameTables
  refine Triple.bind (Triple.pre (fwdPhase_triple (P := fun s => s = start)
    (Q := fun _ => Kept placed start) (I := fun s => start.SameAside s)
    (fun g => (hsmooth g).honest)
    (removeStaleVipKeys_only baseline fun key s => .dropKey s key) (fun hh => ?_)
    fun s t hst hs => ?_) ?_) fun _ => ?_
  · rw [hbase hh]
    exact removeStaleVipKeys_triple hsmooth hh hcanon
  · obtain ⟨h1, h2, h3, h4, h5, h6⟩ := hst
    exact ⟨h1.trans hs.1, h2.trans hs.2, h3.trans hs.3, h4.trans hs.4, h5.trans hs.5,
      h6.trans hs.6⟩
  · rintro s rfl
    exact ⟨fun _ => rfl, .refl s⟩
  refine Triple.bind readOldAclLists_triple fun oldAclLists => ?_
  refine Triple.bind (Triple.pre (writeConfig_triple
    (P := fun s => (e.Honest → Kept placed start s) ∧ Aside (fun _ => True)
      (· = start.aclAllowV4) (· = start.aclBlockV4) (· = start.aclAllowV6)
      (· = start.aclBlockV6) (· = start.txPorts) s) hsmooth ?_ ?_ fun g => (hG g).frame) ?_)
    fun _ => ?_
  · intro value s hs
    exact ⟨fun hh => Kept.same (s := s) ⟨rfl, rfl, rfl⟩ (hs.1 hh),
      ⟨trivial, hs.2.2, hs.2.3, hs.2.4, hs.2.5, hs.2.6⟩⟩
  · intro maxFrame s hs
    exact hstep s _ ⟨rfl, rfl, rfl⟩ (.config _ maxFrame (coversLists_union placed oldAclLists) rfl)
  · rintro s ⟨hs, -⟩
    exact ⟨hs.1, ⟨trivial, hs.2.aclAllowV4, hs.2.aclBlockV4, hs.2.aclAllowV6, hs.2.aclBlockV6,
      hs.2.txPorts⟩⟩
  refine Triple.bind (Triple.pre (applyMaps_triple hkeys hsmooth hplan hcanon hnum hG) ?_)
    fun _ => ?_
  · rintro s ⟨hs, maxFrame, -, hvalue⟩
    exact ⟨hs.1, ⟨⟨_, maxFrame, coversLists_union placed oldAclLists, hvalue⟩, hs.2.2, hs.2.3,
      hs.2.4, hs.2.5, hs.2.6⟩⟩
  refine Triple.bind (Triple.pre (writeConfig_triple
    (P := fun s => (e.Honest → Forwarded score e keys placed s) ∧
      ListsSynced e placed start (fun _ => True) (PortsSynced e placed start) s) hsmooth ?_ ?_
    fun g => (hG g).frame) ?_) fun _ => ?_
  · intro value s hs
    exact ⟨fun hh => Forwarded.same (s := s) ⟨rfl, rfl, rfl⟩ (hs.1 hh),
      ⟨trivial, hs.2.2, hs.2.3, hs.2.4, hs.2.5, hs.2.6⟩⟩
  · intro maxFrame s hs
    exact hstep s _ ⟨rfl, rfl, rfl⟩ (.config _ maxFrame (coversLists_final placed) rfl)
  · rintro s ⟨hfwd, hs⟩
    exact ⟨hfwd, ⟨trivial, hs.2, hs.3, hs.4, hs.5, hs.6⟩⟩
  · refine Triple.pure fun s hs => ⟨rfl, hs.1.1, ?_⟩
    exact ⟨hs.2, hs.1.2.2, hs.1.2.3, hs.1.2.4, hs.1.2.5, hs.1.2.6⟩

theorem reconcileApply_whole (hkeys : keys.Sound) (hdistinct : conf.KeysDistinct)
    (hcanon : ∀ key ∈ conf.keys, key.Canonical) :
    Triple e (fun s => s = start) (reconcileApply score keys conf)
      (ReconcileStep score e.Honest conf (conf.assigned start))
      (fun _ => ¬Feasible e keys conf start)
      (fun out s => (e.Honest → out = conf.assigned start ∧
        Reconciled score e keys (conf.assigned start) s) ∧ AsideDone e conf start s) := by
  have hsmooth : Feasible e keys conf start → e.Smooth := fun g => g.smooth
  have hG : Feasible e keys conf start → e.Honest := fun g => g.smooth.honest
  refine Triple.bind (openMaps_triple hsmooth) fun _ => ?_
  refine Triple.bind (baseline_triple hsmooth fun g => g.readable) fun baseline => ?_
  refine Triple.assume fun hbase => ?_
  refine Triple.bind (allocateVipNums_triple (fun g => g.count)
    fun g => (hbase (hG g)).symm ▸ g.alloc) fun result => Triple.assume ?_
  rintro ⟨hresult, hok⟩
  have hnums : ∀ vip ∈ (conf.withNums result.num).vips, vip.vipMeta.vipNum < maxVips := by
    intro vip hvip
    obtain ⟨i, old, hold, rfl⟩ := MarlinConf.mem_withNums.mp hvip
    rw [hresult] at hok ⊢
    exact (vipAlloc_safe hok).num_lt i (by simpa using (List.getElem?_eq_some_iff.mp hold).1)
  have hassigned : e.Honest → conf.withNums result.num = conf.assigned start := fun hh => by
    rw [hresult, hbase hh]
    rfl
  have hplan : e.Honest → Planned (conf.withNums result.num) result.plan start := fun hh => by
    rw [hresult, hbase hh] at hok ⊢
    exact vipAlloc_planned hdistinct hok
  have hcanon' : ∀ key ∈ (conf.withNums result.num).keys, key.Canonical := by
    rwa [MarlinConf.withNums_keys]
  have hrun : Triple e (fun s => s = start) _
      (ReconcileStep score e.Honest (conf.withNums result.num) (conf.withNums result.num)) _ _ :=
    assigned_triple hkeys hsmooth hbase hplan hcanon' hnums fun g => g.withNums result.num
  refine Triple.consequence hrun (fun s hs => hs) (fun s t hst => ?_) (fun s hs => hs) ?_
  · exact ⟨fun hh => hassigned hh ▸ hst.forward hh, hst.aside.of_withNums, hst.vips⟩
  · rintro out s ⟨rfl, hfwd, haside⟩
    refine ⟨fun hh => ⟨hassigned hh, ?_⟩, haside⟩
    rw [← hassigned hh]
    refine ⟨(hfwd hh).1, hnums, (hfwd hh).2, ?_⟩
    obtain ⟨maxFrame, hframe, hvalue⟩ := haside.config
    refine ⟨maxFrame, hvalue, fun hset => ?_⟩
    rwa [Env.Frames, if_pos hset] at hframe

/--
Every write of `reconcile_apply` is an allowed step; when it returns, the maps hold
the configuration; and it returns when nothing stands in its way.
-/
theorem reconcileApply_triple (hhonest : e.Honest) (hkeys : keys.Sound)
    (hdistinct : conf.KeysDistinct) (hcanon : ∀ key ∈ conf.keys, key.Canonical) :
    Triple e (fun s => s = start) (reconcileApply score keys conf)
      (ReloadStep score (conf.assigned start)) (fun _ => ¬Unhindered e keys conf start)
      (fun out s => out = conf.assigned start ∧
        Reconciled score e keys (conf.assigned start) s) :=
  Triple.consequence (reconcileApply_whole hkeys hdistinct hcanon) (fun _ hs => hs)
    (fun _ _ hst => hst.forward hhonest) (fun _ hs hfree => hs hfree.feasible)
    fun _ _ hs => hs.1 hhonest

end Whole

end Marlin
