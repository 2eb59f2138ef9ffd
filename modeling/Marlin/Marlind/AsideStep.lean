import Marlin.Marlind.ReconcileAside

/-!
# The writes a reload may make beside the forwarding maps

The counterpart of `ReloadStep` for `config`, the ACL tries and `tx_ports`.  A trie is
only written once `config` announces every list of the new configuration, and a rule is
only deleted once every rule that replaces it is there.
-/

namespace Marlin

open Marlin.Library Marlin.Library.Table

def ConfAcl.list (acl : ConfAcl) : AclList → AclFamily → List ConfAclEntry
  | .allow, .v4 => acl.allowV4
  | .block, .v4 => acl.blockV4
  | .allow, .v6 => acl.allowV6
  | .block, .v6 => acl.blockV6

theorem aclListsBits_ne_zero (acl : ConfAcl) (list : AclList) (family : AclFamily) :
    aclListsBits acl &&& aclListsBit list family ≠ 0 ↔ acl.list list family ≠ [] := by
  have hbits : ∀ (a b c d : Bool),
      let bits : UInt16 := (if a then aclListsBit .allow .v4 else 0) |||
        (if b then aclListsBit .block .v4 else 0) |||
        (if c then aclListsBit .allow .v6 else 0) ||| if d then aclListsBit .block .v6 else 0
      (bits &&& aclListsBit .allow .v4 ≠ 0 ↔ a) ∧ (bits &&& aclListsBit .block .v4 ≠ 0 ↔ b) ∧
        (bits &&& aclListsBit .allow .v6 ≠ 0 ↔ c) ∧ (bits &&& aclListsBit .block .v6 ≠ 0 ↔ d) := by
    decide
  have hfill : ∀ entries : List ConfAclEntry, entries ≠ [] ↔ decide (entries.length > 0) = true :=
    fun entries => by simp [List.length_pos_iff]
  have hall := hbits (decide (acl.allowV4.length > 0)) (decide (acl.blockV4.length > 0))
    (decide (acl.allowV6.length > 0)) (decide (acl.blockV6.length > 0))
  simp only [decide_eq_true_eq] at hall
  cases list <;> cases family <;> simp only [ConfAcl.list, hfill, decide_eq_true_eq]
  · exact hall.1
  · exact hall.2.2.1
  · exact hall.2.1
  · exact hall.2.2.2

/-- Every list that the configuration fills has its bit set. -/
def CoversLists (conf : MarlinConf) (aclLists : UInt16) : Prop :=
  ∀ list family, aclListsBits conf.acl &&& aclListsBit list family ≠ 0 →
    aclLists &&& aclListsBit list family ≠ 0

def Widened (conf : MarlinConf) (mp : Maps) : Prop :=
  ∃ aclLists maxFrame, CoversLists conf aclLists ∧ mp.config = configValue conf aclLists maxFrame

inductive AsideStep (conf : MarlinConf) (s t : Maps) : Prop where
  | same (h : s.SameAside t)
  | config (aclLists : UInt16) (maxFrame : Nat) (hbits : CoversLists conf aclLists)
      (ht : t = { s with config := configValue conf aclLists maxFrame })
  | tries (hwide : Widened conf s) (hconfig : t.config = s.config)
      (htxPorts : t.txPorts = s.txPorts)
      (hallowV4 : SyncStep maxAclEntries (aclPairs wantAclV4 conf.acl.allowV4)
        s.aclAllowV4 t.aclAllowV4)
      (hblockV4 : SyncStep maxAclEntries (aclPairs wantAclV4 conf.acl.blockV4)
        s.aclBlockV4 t.aclBlockV4)
      (hallowV6 : SyncStep maxAclEntries (aclPairs wantAclV6 conf.acl.allowV6)
        s.aclAllowV6 t.aclAllowV6)
      (hblockV6 : SyncStep maxAclEntries (aclPairs wantAclV6 conf.acl.blockV6)
        s.aclBlockV6 t.aclBlockV6)
  | txPorts (want : List Nat) (table : Table Nat Nat)
      (hstep : SyncStep maxTxPorts (txPairs want) s.txPorts table)
      (ht : t = { s with txPorts := table })

theorem coversLists_final (conf : MarlinConf) : CoversLists conf (aclListsBits conf.acl) :=
  fun _ _ h => h

theorem coversLists_union (conf : MarlinConf) (old : UInt16) :
    CoversLists conf (old ||| aclListsBits conf.acl) := by
  intro list family h hzero
  have hsplit : (old ||| aclListsBits conf.acl) &&& aclListsBit list family =
      (old &&& aclListsBit list family) |||
        (aclListsBits conf.acl &&& aclListsBit list family) := by
    apply UInt16.toBitVec_inj.mp
    simp only [UInt16.toBitVec_and, UInt16.toBitVec_or, BitVec.and_or_distrib_right]
  rw [hsplit, UInt16.or_eq_zero_iff] at hzero
  exact h hzero.2

/-! ## Sizes -/

structure Maps.AsideBounded (mp : Maps) : Prop where
  txPorts : mp.txPorts.keys.length ≤ maxTxPorts
  aclAllowV4 : mp.aclAllowV4.keys.length ≤ maxAclEntries
  aclBlockV4 : mp.aclBlockV4.keys.length ≤ maxAclEntries
  aclAllowV6 : mp.aclAllowV6.keys.length ≤ maxAclEntries
  aclBlockV6 : mp.aclBlockV6.keys.length ≤ maxAclEntries

section

variable {conf : MarlinConf} {start s t : Maps}

theorem Maps.SameAside.bounded (h : s.SameAside t) (hs : s.AsideBounded) : t.AsideBounded := by
  refine ⟨?_, ?_, ?_, ?_, ?_⟩
  · rw [h.txPorts]
    exact hs.txPorts
  · rw [h.aclAllowV4]
    exact hs.aclAllowV4
  · rw [h.aclBlockV4]
    exact hs.aclBlockV4
  · rw [h.aclAllowV6]
    exact hs.aclAllowV6
  · rw [h.aclBlockV6]
    exact hs.aclBlockV6

theorem AsideStep.bounded (hstep : AsideStep conf s t) (hs : s.AsideBounded) :
    t.AsideBounded := by
  cases hstep with
  | same h => exact h.bounded hs
  | config aclLists maxFrame hbits ht =>
      subst ht
      exact ⟨hs.txPorts, hs.aclAllowV4, hs.aclBlockV4, hs.aclAllowV6, hs.aclBlockV6⟩
  | tries hwide hconfig htxPorts hallowV4 hblockV4 hallowV6 hblockV6 =>
      refine ⟨?_, hallowV4.length_le hs.aclAllowV4, hblockV4.length_le hs.aclBlockV4,
        hallowV6.length_le hs.aclAllowV6, hblockV6.length_le hs.aclBlockV6⟩
      rw [htxPorts]
      exact hs.txPorts
  | txPorts want table hstep ht =>
      subst ht
      exact ⟨hstep.length_le hs.txPorts, hs.aclAllowV4, hs.aclBlockV4, hs.aclAllowV6,
        hs.aclBlockV6⟩

/-! ## The rules in force -/

structure TriesBetween (conf : MarlinConf) (start mp : Maps) : Prop where
  allowV4 : Between start.aclAllowV4 (aclPairs wantAclV4 conf.acl.allowV4) mp.aclAllowV4
  blockV4 : Between start.aclBlockV4 (aclPairs wantAclV4 conf.acl.blockV4) mp.aclBlockV4
  allowV6 : Between start.aclAllowV6 (aclPairs wantAclV6 conf.acl.allowV6) mp.aclAllowV6
  blockV6 : Between start.aclBlockV6 (aclPairs wantAclV6 conf.acl.blockV6) mp.aclBlockV6

/-- The maps agree with `start` on `config` and the tries, or the reload has begun. -/
def AclInv (conf : MarlinConf) (start mp : Maps) : Prop :=
  (mp.config = start.config ∧ mp.aclAllowV4 = start.aclAllowV4 ∧
    mp.aclBlockV4 = start.aclBlockV4 ∧ mp.aclAllowV6 = start.aclAllowV6 ∧
    mp.aclBlockV6 = start.aclBlockV6) ∨ (Widened conf mp ∧ TriesBetween conf start mp)

theorem AclInv.refl (conf : MarlinConf) (start : Maps) : AclInv conf start start :=
  Or.inl ⟨rfl, rfl, rfl, rfl, rfl⟩

theorem AclInv.between (h : AclInv conf start s) : TriesBetween conf start s := by
  rcases h with ⟨-, hallowV4, hblockV4, hallowV6, hblockV6⟩ | ⟨-, h⟩
  · refine ⟨?_, ?_, ?_, ?_⟩
    · rw [hallowV4]
      exact Between.refl _ _
    · rw [hblockV4]
      exact Between.refl _ _
    · rw [hallowV6]
      exact Between.refl _ _
    · rw [hblockV6]
      exact Between.refl _ _
  · exact h

theorem AsideStep.aclInv (hstep : AsideStep conf s t) (h : AclInv conf start s) :
    AclInv conf start t := by
  cases hstep with
  | same hsame =>
      obtain ⟨hconfig, -, hallowV4, hblockV4, hallowV6, hblockV6⟩ := hsame
      rcases h with hold | ⟨⟨aclLists, maxFrame, hbits, hvalue⟩, hbetween⟩
      · left
        rwa [hconfig, hallowV4, hblockV4, hallowV6, hblockV6]
      · refine Or.inr ⟨⟨aclLists, maxFrame, hbits, hconfig.trans hvalue⟩, ?_⟩
        obtain ⟨h1, h2, h3, h4⟩ := hbetween
        exact ⟨hallowV4 ▸ h1, hblockV4 ▸ h2, hallowV6 ▸ h3, hblockV6 ▸ h4⟩
  | config aclLists maxFrame hbits ht =>
      have hbetween := h.between
      subst ht
      refine Or.inr ⟨⟨aclLists, maxFrame, hbits, rfl⟩, ?_⟩
      exact ⟨hbetween.allowV4, hbetween.blockV4, hbetween.allowV6, hbetween.blockV6⟩
  | tries hwide hconfig htxPorts hallowV4 hblockV4 hallowV6 hblockV6 =>
      have hbetween := h.between
      obtain ⟨aclLists, maxFrame, hbits, hvalue⟩ := hwide
      refine Or.inr ⟨⟨aclLists, maxFrame, hbits, hconfig.trans hvalue⟩, ?_⟩
      exact ⟨hallowV4.between hbetween.allowV4, hblockV4.between hbetween.blockV4,
        hallowV6.between hbetween.allowV6, hblockV6.between hbetween.blockV6⟩
  | txPorts want table hstep ht =>
      subst ht
      rcases h with hold | ⟨hwide, hbetween⟩
      · exact Or.inl hold
      · exact Or.inr ⟨hwide,
          ⟨hbetween.allowV4, hbetween.blockV4, hbetween.allowV6, hbetween.blockV6⟩⟩

end

end Marlin
