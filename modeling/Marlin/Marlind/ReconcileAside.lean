import Marlin.Marlind.ReconcileSync

/-!
# The phases that leave the forwarding maps alone

Opening the maps, `config`, the ACL tries and `tx_ports`.  Every rule carries along
what holds of the maps that its phase does not write.
-/

namespace Marlin

open Marlin.Library Marlin.Library.Table

structure Maps.SameTables (s t : Maps) : Prop where
  vipMap : t.vipMap = s.vipMap
  fwdTable : t.fwdTable = s.fwdTable
  backends : t.backends = s.backends

structure Maps.SameAside (s t : Maps) : Prop where
  config : t.config = s.config
  txPorts : t.txPorts = s.txPorts
  aclAllowV4 : t.aclAllowV4 = s.aclAllowV4
  aclBlockV4 : t.aclBlockV4 = s.aclBlockV4
  aclAllowV6 : t.aclAllowV6 = s.aclAllowV6
  aclBlockV6 : t.aclBlockV6 = s.aclBlockV6

theorem Maps.SameAside.refl (s : Maps) : s.SameAside s := ⟨rfl, rfl, rfl, rfl, rfl, rfl⟩

/-! ## What the host answers -/

/-- What `derive_max_frame` makes of the answers to its two calls. -/
def frameOf (socket : Option Errno) (mtu : Except Errno Int) : Option Nat :=
  match socket, mtu with
  | none, .ok mtu => if mtu < 0 ∨ mtu + ethHlen > 0xffff then none else some (mtu + ethHlen).toNat
  | _, _ => none

def Env.Derives (e : Env) (iface : CBuf) (answer : Option Nat) : Prop :=
  ∃ n m, answer = frameOf (e.socket n) (e.mtu m iface)

def Env.Frames (e : Env) (conf : MarlinConf) (maxFrame : Nat) : Prop :=
  if conf.inst.maxFrameSet = true then maxFrame = conf.inst.maxFrame
  else e.Derives conf.inst.iface (some maxFrame) ∨
    (e.Derives conf.inst.iface none ∧ anyBackendEncapsulates conf = false ∧ maxFrame = 0)

def Env.FrameSettles (e : Env) (conf : MarlinConf) : Prop :=
  conf.inst.maxFrameSet = true ∨ anyBackendEncapsulates conf = false ∨
    ¬e.Derives conf.inst.iface none

def Env.Resolves (e : Env) (names : List CBuf) (want : List Nat) : Prop :=
  List.Forall₂ (fun name ifindex => ifindex ≠ 0 ∧ ∃ n, e.nametoindex n name = ifindex) names want

def aclPairs {K : Type} (want : ConfAclEntry → K) (entries : List ConfAclEntry) :
    List (K × Nat) :=
  entries.zipIdx.map fun entry => (want entry.1, entry.2)

theorem wanted_aclPairs {K : Type} (want : ConfAclEntry → K) (entries : List ConfAclEntry) :
    wanted (aclPairs want entries) = entries.map want := by
  have hfst : entries.zipIdx.map Prod.fst = entries := List.zipIdx_map_fst 0 entries
  rw [wanted, aclPairs, List.map_map]
  change entries.zipIdx.map (want ∘ Prod.fst) = entries.map want
  rw [← List.map_map, hfst]

def txPairs (want : List Nat) : List (Nat × Nat) := want.map fun ifindex => (ifindex, ifindex)

theorem wanted_txPairs (want : List Nat) : wanted (txPairs want) = want := by
  simp [wanted, txPairs, Function.comp_def]

/-- A map that can never be enumerated. -/
def Env.Blind (e : Env) (name : MapName) : Prop := ∀ n, e.readFault name n ≠ none

/--
A map has been brought from `old` to the pairs: completely where `D` holds, without a
deletion where `B` does.
-/
structure Synced {K : Type} [DecidableEq K] (D B : Prop) (old : Table K Nat)
    (kvs : List (K × Nat)) (n : Nat) (t : Table K Nat) : Prop where
  holds : D → Holds kvs t
  blind : B → Grown old kvs t
  fits : old.keys.length ≤ n → Fits old kvs n

section

variable {e : Env} {G : Prop} {P : Maps → Prop} {R : Maps → Maps → Prop}

/-! ## Opening the maps -/

private theorem findMapFd_triple (name : String) :
    Triple e P (findMapFd name) R (fun _ => ¬G)
      (fun found s => P s ∧ (e.mapFd name = .opened → found = true)) := by
  refine Triple.bind (M := fun handle s => P s ∧ handle = e.mapFd name)
    (Triple.ask fun s hs => ⟨hs, rfl⟩) fun handle => ?_
  cases handle with
  | missing =>
      refine Triple.bind (M := fun _ s => P s ∧ .missing = e.mapFd name)
        (Triple.say fun s hs => hs) fun _ => Triple.pure fun s hs => ⟨hs.1, ?_⟩
      intro hopened
      rw [hopened] at hs
      cases hs.2
  | closed =>
      refine Triple.bind (M := fun _ s => P s ∧ .closed = e.mapFd name)
        (Triple.say fun s hs => hs) fun _ => Triple.pure fun s hs => ⟨hs.1, ?_⟩
      intro hopened
      rw [hopened] at hs
      cases hs.2
  | opened => exact Triple.pure fun s hs => ⟨hs.1, fun _ => rfl⟩

private theorem findMapFd_step {C : Prop} (name : String) :
    Triple e (fun s => P s ∧ C) (findMapFd name) R (fun _ => ¬G)
      (fun found s => P s ∧ (C ∧ (e.mapFd name = .opened → found = true))) :=
  Triple.post (findMapFd_triple (P := fun s => P s ∧ C) name)
    fun _ _ hs => ⟨hs.1.1, hs.1.2, hs.2⟩

theorem openMaps_triple (hsmooth : G → e.Smooth) :
    Triple e P openMaps R (fun _ => ¬G) (fun _ => P) := by
  refine Triple.bind (findMapFd_triple (P := P) _) fun config => ?_
  refine Triple.bind (findMapFd_step _) fun backends => ?_
  refine Triple.bind (findMapFd_step _) fun fwdTable => ?_
  refine Triple.bind (findMapFd_step _) fun vipMap => ?_
  refine Triple.bind (findMapFd_step _) fun txPorts => ?_
  refine Triple.bind (findMapFd_step _) fun aclAllowV4 => ?_
  refine Triple.bind (findMapFd_step _) fun aclBlockV4 => ?_
  refine Triple.bind (findMapFd_step _) fun aclAllowV6 => ?_
  refine Triple.bind (findMapFd_step _) fun aclBlockV6 => ?_
  refine Triple.ite (fun _ => Triple.pure fun s hs => hs.1) fun hmissing => ?_
  refine Triple.stop fun s hs g => hmissing ?_
  have hopened := (hsmooth g).opened
  simp only [hopened, forall_const] at hs
  simp [hs]

/-! ## The configuration value -/

theorem deriveMaxFrame_triple {S : Maps → Prop} (iface : CBuf) :
    Triple e P (deriveMaxFrame iface) R S (fun answer s => e.Derives iface answer ∧ P s) := by
  refine Triple.bind (M := fun socket s => (∃ n, socket = e.socket n) ∧ P s)
    (Triple.look fun n s hs => ⟨⟨n, rfl⟩, hs⟩) fun socket => Triple.assume ?_
  rintro ⟨n, hsocket⟩
  cases socket with
  | some errno =>
      refine Triple.bind (M := fun _ => P) (Triple.ask fun _ hs => hs) fun _ =>
        Triple.bind (M := fun _ => P) (Triple.say fun _ hs => hs) fun _ => ?_
      exact Triple.pure fun s hs => ⟨⟨n, 0, by rw [← hsocket]; rfl⟩, hs⟩
  | none =>
      refine Triple.bind (M := fun mtu s => (∃ m, mtu = e.mtu m iface) ∧ P s)
        (Triple.look fun m s hs => ⟨⟨m, rfl⟩, hs⟩) fun mtu => Triple.assume ?_
      rintro ⟨m, hmtu⟩
      cases mtu with
      | error errno =>
          refine Triple.bind (M := fun _ => P) (Triple.ask fun _ hs => hs) fun _ =>
            Triple.bind (M := fun _ => P) (Triple.say fun _ hs => hs) fun _ => ?_
          exact Triple.pure fun s hs => ⟨⟨n, m, by rw [← hsocket, ← hmtu]; rfl⟩, hs⟩
      | ok mtu =>
          refine Triple.ite ?_ ?_
          · intro hbig
            refine Triple.bind (M := fun _ => P) (Triple.say fun _ hs => hs) fun _ => ?_
            exact Triple.pure fun s hs =>
              ⟨⟨n, m, by rw [← hsocket, ← hmtu, frameOf, if_pos hbig]⟩, hs⟩
          · intro hsmall
            exact Triple.pure fun s hs =>
              ⟨⟨n, m, by rw [← hsocket, ← hmtu, frameOf, if_neg hsmall]⟩, hs⟩

theorem settleMaxFrame_triple {conf : MarlinConf} (hframe : G → e.FrameSettles conf) :
    Triple e P (settleMaxFrame conf) R (fun _ => ¬G)
      (fun maxFrame s => e.Frames conf maxFrame ∧ P s) := by
  refine Triple.ite ?_ ?_
  · intro hset
    exact Triple.pure fun s hs => ⟨by rw [Env.Frames, if_pos hset], hs⟩
  · intro hunset
    refine Triple.bind (deriveMaxFrame_triple _) fun derived => Triple.assume fun hderived => ?_
    cases derived with
    | some maxFrame =>
        exact Triple.pure fun s hs => ⟨by rw [Env.Frames, if_neg hunset]; exact Or.inl hderived, hs⟩
    | none =>
        refine Triple.ite ?_ ?_
        · intro hencap
          refine fail_triple fun s hs g => ?_
          rcases hframe g with hset | hplain | hnever
          · exact hunset hset
          · rw [hencap] at hplain
            cases hplain
          · exact hnever hderived
        · intro hplain
          refine Triple.pure fun s hs => ⟨?_, hs⟩
          rw [Env.Frames, if_neg hunset]
          exact Or.inr ⟨hderived, by simpa using hplain, rfl⟩

theorem writeConfig_triple (hsmooth : G → e.Smooth) {conf : MarlinConf} {aclLists : UInt16}
    (hP : ∀ value s, P s → P { s with config := value })
    (hR : ∀ maxFrame s, P s → R s { s with config := configValue conf aclLists maxFrame })
    (hframe : G → e.FrameSettles conf) :
    Triple e P (writeConfig conf aclLists) R (fun _ => ¬G)
      (fun _ s => P s ∧ ∃ maxFrame, e.Frames conf maxFrame ∧
        s.config = configValue conf aclLists maxFrame) := by
  refine Triple.bind (settleMaxFrame_triple hframe) fun maxFrame => Triple.assume fun hmax => ?_
  refine Triple.bind (M := fun answer s => (answer = none →
      P s ∧ s.config = configValue conf aclLists maxFrame) ∧ (answer ≠ none → ¬G))
    (Triple.put ?_ ?_) fun answer => ?_
  · intro n s hs
    cases hfault : e.writeFault n with
    | some fault => simp [chain]
    | none => simpa [chain] using hR maxFrame s hs
  · intro n s hs
    cases hfault : e.writeFault n with
    | some fault =>
        refine ⟨by simp, fun _ g => ?_⟩
        rw [(hsmooth g).writes n] at hfault
        contradiction
    | none => exact ⟨fun _ => ⟨hP _ s hs, rfl⟩, by simp⟩
  · cases answer with
    | none => exact Triple.pure fun s hs => ⟨(hs.1 rfl).1, maxFrame, hmax, (hs.1 rfl).2⟩
    | some errno => exact failErrno_triple fun s hs => hs.2 (by simp)

theorem readOldAclLists_triple {S : Maps → Prop} :
    Triple e P readOldAclLists R S (fun old s => P s ∧
      ((∀ n, e.readFault .config n = none) → old = s.config.aclLists)) := by
  refine Triple.bind (M := fun answer s => P s ∧
      ((∀ n, e.readFault .config n = none) → answer = .ok s.config))
    (Triple.look fun n s hs => ⟨hs, fun hread => by simp [hread n]⟩) fun answer => ?_
  cases answer with
  | error errno =>
      refine Triple.pure fun s hs => ⟨hs.1, fun hread => ?_⟩
      have hok := hs.2 hread
      cases hok
  | ok old =>
      refine Triple.pure fun s hs => ⟨hs.1, fun hread => ?_⟩
      have hok := hs.2 hread
      cases hok
      rfl

/-! ## The ACL tries -/

theorem reconcileAcl_triple {K : Type} [DecidableEq K] (ref : TableRef K Nat) (href : ref.Lawful)
    (hmax : ref.maxEntries = maxAclEntries) {D : Prop} {old : Table K Nat}
    (want : ConfAclEntry → K) (family : String) {entries : List ConfAclEntry}
    (hsmooth : G → e.Smooth) (hP : ∀ table s, P s → P (ref.set table s))
    (hR : ∀ table s, P s → SyncStep ref.maxEntries (aclPairs want entries) (ref.get s) table →
      R s (ref.set table s))
    (hD : D → (∀ n, e.readFault ref.name n = none) ∧ e.HonestDeletes ∧
      old.keys.length ≤ maxAclEntries)
    (hfits : G → entries ≠ [] → Fits old (aclPairs want entries) maxAclEntries) :
    Triple e (fun s => P s ∧ ref.get s = old) (reconcileAcl ref want family entries) R
      (fun _ => ¬G)
      (fun _ s => P s ∧ Synced D (e.Blind ref.name) old (aclPairs want entries) maxAclEntries
        (ref.get s)) := by
  refine Triple.bind (callocFails_triple hsmooth) fun oom => ?_
  cases oom with
  | true => exact fail_triple fun s hs => hs.2 rfl
  | false =>
      refine Triple.bind (M := fun existing s => ((D → ∀ k ∈ old, k ∈ existing) ∧
        (e.Blind ref.name → existing = [])) ∧ P s ∧ ref.get s = old) ?_ fun existing =>
        Triple.assume ?_
      · by_cases hblind : e.Blind ref.name
        · refine Triple.consequence (ref.collectKeys_blind hblind) (fun s hs => hs.1)
            (fun _ _ h => h) (fun _ h => h) fun keys s hs => ⟨⟨fun hd => ?_, fun _ => hs.1⟩, hs.2⟩
          exact absurd ((hD hd).1 0) (hblind 0)
        · refine Triple.consequence (ref.collectKeys_complete (F := P) (D := D) old
            fun hd => ⟨(hD hd).1, (hD hd).2.2⟩) (fun s hs => hs.1) (fun _ _ h => h)
            (fun _ h => h) fun keys s hs => ⟨⟨hs.1, fun h => absurd h hblind⟩, hs.2⟩
      rintro ⟨hall, hempty⟩
      refine Triple.bind (ref.updateAll_triple href hsmooth hP old hR fun g hne => ?_) fun _ => ?_
      · rw [hmax]
        exact hfits g (by simpa using hne)
      refine Triple.pre (P := fun s => (old.keys.length ≤ maxAclEntries →
        Fits old (aclPairs want entries) maxAclEntries) ∧ P s ∧
        Grown old (aclPairs want entries) (ref.get s)) (Triple.assume fun hfit => ?_)
        fun s hs => ⟨fun hlen => ?_, hs.1, hs.2.1⟩
      · by_cases hblind : e.Blind ref.name
        · rw [hempty hblind]
          refine Triple.pure fun s hs => ⟨hs.1, fun hd => ?_, fun _ => hs.2, hfit⟩
          exact absurd ((hD hd).1 0) (hblind 0)
        · refine Triple.consequence (ref.deleteStale_triple href hsmooth
            (fun hd => (hD hd).2.1) hP old (fun k => ?_) hR existing)
            (fun s hs => ⟨hs.1, hs.2.shrunk⟩) (fun _ _ h => h) (fun _ h => h)
            fun _ s hs => ⟨hs.1, fun hd => hs.2.holds hd (hall hd), fun h => absurd h hblind, hfit⟩
          simp [wanted_aclPairs]
      · rw [hmax] at hs
        exact hs.2.1.fits (hs.2.2 hlen)

/-! ## The ports -/

theorem resolveTxPorts_triple {S : Maps → Prop} (names : List CBuf) (i : Nat)
    (hstop : ∀ s, P s → ∀ name ∈ names, ∀ n, e.nametoindex n name = 0 → S s) :
    Triple e P (resolveTxPorts (names.zipIdx i)) R S
      (fun want s => e.Resolves names want ∧ P s) := by
  induction names generalizing i with
  | nil => exact Triple.pure fun s hs => ⟨List.Forall₂.nil, hs⟩
  | cons name names ih =>
      rw [List.zipIdx_cons]
      refine Triple.bind (M := fun ifindex s => (∃ n, e.nametoindex n name = ifindex) ∧ P s)
        (Triple.look fun n s hs => ⟨⟨n, rfl⟩, hs⟩) fun ifindex => Triple.assume ?_
      rintro ⟨n, hindex⟩
      refine Triple.ite ?_ ?_
      · intro hzero
        refine Triple.bind (M := fun _ => P) (Triple.say fun _ hs => hs) fun _ =>
          Triple.stop fun s hs => ?_
        exact hstop s hs name (by simp) n (hindex.trans hzero)
      · intro hfound
        refine Triple.bind (ih (i + 1) fun s hs other hother => hstop s hs other (by simp [hother]))
          fun out => ?_
        exact Triple.pure fun s hs => ⟨List.Forall₂.cons ⟨hfound, n, hindex⟩ hs.1, hs.2⟩

variable (hsmooth : G → e.Smooth) (hP : ∀ table s, P s → P { s with txPorts := table })
  {want : List Nat} (old : Table Nat Nat)
  (hR : ∀ table s, P s → SyncStep maxTxPorts (txPairs want) s.txPorts table →
    R s { s with txPorts := table })

include hsmooth hP hR

theorem addTxPorts_triple (hfits : G → want ≠ [] → Fits old (txPairs want) maxTxPorts) :
    Triple e (fun s => P s ∧ s.txPorts = old) (addTxPorts want) R (fun _ => ¬G)
      (fun _ s => P s ∧ Grown old (txPairs want) s.txPorts ∧
        (old.keys.length ≤ maxTxPorts → s.txPorts.keys.length ≤ maxTxPorts)) :=
  txPortsRef.updateAll_triple (fun _ _ => rfl) hsmooth hP old hR hfits

theorem removeStaleTxPorts_triple {D : Prop}
    (hD : D → (∀ n, e.readFault .txPorts n = none) ∧ e.HonestDeletes) :
    Triple e (fun s => P s ∧ Grown old (txPairs want) s.txPorts ∧
        (D → s.txPorts.keys.length ≤ maxTxPorts))
      (removeStaleTxPorts want) R (fun _ => ¬G)
      (fun _ s => P s ∧ (D → Holds (txPairs want) s.txPorts)) := by
  refine Triple.byStore fun start hstart => ?_
  obtain ⟨hpre, hgrown, hlen⟩ := hstart
  refine Triple.bind (Triple.pre (txPortsRef.collectKeys_complete (F := P) (D := D)
    start.txPorts fun hd => ⟨(hD hd).1, hlen hd⟩) ?_) fun existing => ?_
  · rintro s rfl
    exact ⟨hpre, rfl⟩
  refine Triple.assume fun hall => ?_
  refine Triple.consequence (txPortsRef.deleteStale_triple (fun _ _ => rfl) hsmooth
    (fun hd => (hD hd).2) hP start.txPorts
    (fun k => ?_) hR existing) ?_ (fun _ _ h => h) (fun _ h => h)
    fun _ s hs => ⟨hs.1, fun hd => hs.2.holds hd (hall hd)⟩
  · simp [wanted_txPairs]
  · rintro s ⟨hs, heq⟩
    refine ⟨hs, ?_⟩
    rw [heq]
    exact hgrown.shrunk_self

end

end Marlin
