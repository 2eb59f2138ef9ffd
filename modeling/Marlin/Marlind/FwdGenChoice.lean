import Mathlib.Data.List.Nodup
import Mathlib.Order.Interval.Set.Defs
import Mathlib.Order.Monotone.Basic
import Marlin.Marlind.FwdGen

/-!
# Who wins a row

The winner of a row depends on nothing but the members' own scores, so a member that
leaves gives up its own rows and no others.  The equal-weight shortcut ranks the members
by whole digests and the weighted score by their upper 53 bits: the two can part where the
upper bits of two digests agree.
-/

namespace Marlin

open Marlin.Library

section Removal

variable {S : Type} [LinearOrder S] (score : UInt64 → Nat → S)

private theorem winnerId_erase {T : Type} [LinearOrder T] {f : FwdGenMember → T}
    {members : List FwdGenMember} {b : FwdGenMember} (hb : b ∈ members)
    (hlost : winnerId (elect f FwdGenMember.backendId members) ≠ b.backendId) :
    winnerId (elect f FwdGenMember.backendId (members.erase b)) =
      winnerId (elect f FwdGenMember.backendId members) := by
  obtain ⟨a, ha, hamem, -⟩ := elect_spec f FwdGenMember.backendId (List.ne_nil_of_mem hb)
  have hne : a ≠ b := by
    rintro rfl
    exact hlost (by simp [winnerId, ha])
  have hstays := elect_subset (List.erase_subset) ha ((List.mem_erase_of_ne hne).mpr hamem)
  rw [winnerId, winnerId, hstays, ha]
  rfl

/-- A member that leaves takes its own rows with it and moves no other row, as long as the
remaining members are scored by the same path. -/
theorem fwdGenBlock_erase (tableSeed : Key16) (members : List FwdGenMember) (row : Nat) :
    (∀ b ∈ members, equalWeight members = equalWeight (members.erase b) →
      fwdGenBlock score tableSeed members row ≠ b.backendId →
        fwdGenBlock score tableSeed (members.erase b) row =
          fwdGenBlock score tableSeed members row) ∧
      (members ≠ [] →
        ∃ m ∈ members, fwdGenBlock score tableSeed members row = m.backendId) := by
  refine ⟨?_, fun hne => fwdGenBlock_mem score tableSeed hne row⟩
  intro b hb hpath hlost
  have hne : members.isEmpty = false := by simpa using List.ne_nil_of_mem hb
  have hrest : (members.erase b).isEmpty = false := by
    rw [List.isEmpty_eq_false_iff]
    intro hnil
    obtain ⟨m, hm, hrow⟩ := fwdGenBlock_mem score tableSeed (List.ne_nil_of_mem hb) row
    have hmb : m = b := by
      by_contra hmb
      simpa [hnil] using (List.mem_erase_of_ne hmb).mpr hm
    exact hlost (hmb ▸ hrow)
  simp only [fwdGenBlock, hne, hrest, Bool.false_eq_true, if_false, ← hpath] at hlost ⊢
  split
  · next heq =>
      rw [if_pos heq] at hlost
      exact winnerId_erase hb hlost
  · next hneq =>
      rw [if_neg hneq] at hlost
      exact winnerId_erase hb hlost

end Removal

namespace Sample

def tableSeed : Key16 := Vector.ofFn fun i => UInt8.ofNat i.val

def threeMembers : List FwdGenMember :=
  [⟨1, 1, ⟨10, 0, 0, 1⟩, 0, 0⟩, ⟨2, 2, ⟨10, 0, 0, 2⟩, 0, 0⟩, ⟨3, 3, ⟨10, 0, 0, 3⟩, 0, 0⟩]

end Sample

theorem fwdGenBlock_erase_three :
    let score : UInt64 → Nat → Nat := fun digest weight => digest.toNat * weight
    fwdGenBlock score Sample.tableSeed (Sample.threeMembers.erase ⟨1, 1, ⟨10, 0, 0, 1⟩, 0, 0⟩) 0 =
      fwdGenBlock score Sample.tableSeed Sample.threeMembers 0 := by
  intro score
  apply (fwdGenBlock_erase score Sample.tableSeed Sample.threeMembers 0).1
  · decide
  · decide
  · decide +kernel

/-! ## The equal-weight shortcut -/

section Shortcut

variable {S : Type} [LinearOrder S] (score : UInt64 → Nat → S)

/-- A member with the highest digest has the lowest identifier of all the members whose
digests agree with its own in the upper 53 bits. -/
def HighestIsLowest (tableSeed : Key16) (rowSeed : UInt64) (members : List FwdGenMember) : Prop :=
  ∃ m ∈ members,
    (∀ c ∈ members, memberDigest tableSeed rowSeed c ≤ memberDigest tableSeed rowSeed m) ∧
    ∀ c ∈ members,
      memberDigest tableSeed rowSeed c >>> 11 = memberDigest tableSeed rowSeed m >>> 11 →
        m.backendId ≤ c.backendId

theorem toNat_shiftRight_eleven (d : UInt64) : (d >>> 11).toNat = d.toNat / 2 ^ 11 := by
  rw [UInt64.toNat_shiftRight]
  exact Nat.shiftRight_eq_div_pow _ _

def kept (d : UInt64) : Nat := (d >>> 11).toNat + 1

theorem kept_mem (d : UInt64) : kept d ∈ Set.Icc 1 (2 ^ 53) := by
  have hlt := d.toNat_lt
  rw [kept, toNat_shiftRight_eleven]
  constructor
  · omega
  · omega

theorem kept_mono {d e : UInt64} (h : d ≤ e) : kept d ≤ kept e := by
  rw [UInt64.le_iff_toNat_le] at h
  rw [kept, kept, toNat_shiftRight_eleven, toNat_shiftRight_eleven]
  omega

theorem kept_inj {d e : UInt64} (h : kept d = kept e) : d >>> 11 = e >>> 11 :=
  UInt64.toNat_inj.mp (Nat.succ_inj.mp h)

/-- With one weight for all members, the shortcut and the weighted rule name the same backend
exactly when no lower identifier shares the upper 53 bits of the highest digest. -/
theorem pickRowEqualWeight_eq_iff (tableSeed : Key16) (rowSeed : UInt64)
    (members : List FwdGenMember) (hne : members ≠ [])
    (hids : (members.map FwdGenMember.backendId).Nodup) (w : Nat)
    (hweight : ∀ m ∈ members, m.weight = w) (f : Nat → S)
    (hmono : StrictMonoOn f (Set.Icc 1 (2 ^ 53))) (hscore : ∀ d, score d w = f (kept d)) :
    pickRowEqualWeight tableSeed rowSeed members = pickRowWeighted score tableSeed rowSeed members ↔
      HighestIsLowest tableSeed rowSeed members := by
  have hscored : ∀ m ∈ members, score (memberDigest tableSeed rowSeed m) m.weight =
      f (kept (memberDigest tableSeed rowSeed m)) := by
    intro m hm
    rw [hweight m hm, hscore]
  constructor
  · intro heq
    obtain ⟨a, ha, hamem, hamax⟩ := elect_spec
      (fun m => (memberDigest tableSeed rowSeed m).toNat) FwdGenMember.backendId hne
    obtain ⟨b, hb, hbmem, hbmax⟩ := elect_spec
      (fun m => score (memberDigest tableSeed rowSeed m) m.weight) FwdGenMember.backendId hne
    have hid : a.backendId = b.backendId := by
      simpa [pickRowEqualWeight, pickRowWeighted, winnerId, ha, hb] using heq
    obtain rfl : a = b := List.inj_on_of_nodup_map hids hamem hbmem hid
    refine ⟨a, hamem, ?_, ?_⟩
    · intro c hc
      have hnot := hamax c hc
      simp only [Beats, not_or, not_lt] at hnot
      exact UInt64.le_iff_toNat_le.mpr hnot.1
    · intro c hc hupper
      have hnot := hbmax c hc
      simp only [Beats, not_or, not_and, not_lt] at hnot
      apply hnot.2
      rw [hscored c hc, hscored a hamem, kept, kept, hupper]
  · rintro ⟨m, hm, hhighest, hlowest⟩
    have hdigest := elect_of_not_beaten (fun m => (memberDigest tableSeed rowSeed m).toNat)
      FwdGenMember.backendId hm fun c hc hbeats => by
        simp only [Beats] at hbeats
        have hle := UInt64.le_iff_toNat_le.mp (hhighest c hc)
        rcases hbeats with hbeats | ⟨htie, hid⟩
        · omega
        · have hsame := UInt64.toNat_inj.mp htie
          have hlow := hlowest c hc (by rw [hsame])
          omega
    have hweighted := elect_of_not_beaten
      (fun m => score (memberDigest tableSeed rowSeed m) m.weight)
      FwdGenMember.backendId hm fun c hc hbeats => by
        simp only [Beats, hscored c hc, hscored m hm] at hbeats
        have hle := kept_mono (hhighest c hc)
        rcases hbeats with hbeats | ⟨htie, hid⟩
        · have hlt := (hmono.lt_iff_lt (kept_mem _) (kept_mem _)).mp hbeats
          omega
        · have hupper := kept_inj (hmono.injOn (kept_mem _) (kept_mem _) htie)
          have hlow := hlowest c hc hupper
          omega
    rw [pickRowEqualWeight, pickRowWeighted, winnerId, winnerId, hdigest, hweighted]

end Shortcut

instance (tableSeed : Key16) (rowSeed : UInt64) (members : List FwdGenMember) :
    Decidable (HighestIsLowest tableSeed rowSeed members) :=
  inferInstanceAs (Decidable (∃ m ∈ members, _ ∧ _))

theorem pickRowEqualWeight_eq_three :
    let members := Sample.threeMembers.map fun m => { m with weight := 1 }
    pickRowEqualWeight Sample.tableSeed 0 members =
      pickRowWeighted (fun digest _ => kept digest) Sample.tableSeed 0 members := by
  intro members
  have hiff := pickRowEqualWeight_eq_iff (fun digest _ => kept digest) Sample.tableSeed 0 members
  refine (hiff ?_ ?_ 1 ?_ id ?_ ?_).mpr ?_
  · decide
  · decide
  · decide
  · exact strictMonoOn_id
  · exact fun _ => rfl
  · decide +kernel

def ShortcutExact : Prop :=
  ∀ (S : Type) [LinearOrder S] (score : UInt64 → Nat → S) (tableSeed : Key16)
    (rowSeed : UInt64) (members : List FwdGenMember), members ≠ [] →
    (members.map FwdGenMember.backendId).Nodup → ∀ w ≠ 0, (∀ m ∈ members, m.weight = w) →
    ∀ f : Nat → S, StrictMonoOn f (Set.Icc 1 (2 ^ 53)) → (∀ d, score d w = f (kept d)) →
    pickRowEqualWeight tableSeed rowSeed members = pickRowWeighted score tableSeed rowSeed members

def Sample.nearMembers : List FwdGenMember :=
  [⟨1, 1, ⟨23, 112, 47, 224⟩, 0, 0⟩, ⟨2, 1, ⟨27, 113, 64, 153⟩, 0, 0⟩]

/-- The shortcut takes the higher digest and the weighted rule the lower identifier. -/
theorem not_shortcutExact : ¬ ShortcutExact := by
  intro h
  refine absurd (h Nat (fun digest _ => kept digest) Sample.tableSeed
    (marlindSiphash (buildRowBuf 0) 8 Sample.tableSeed) Sample.nearMembers ?_ ?_ 1 ?_ ?_ id
    strictMonoOn_id fun _ => rfl) ?_
  · decide
  · decide
  · decide
  · decide
  · decide +kernel

end Marlin
