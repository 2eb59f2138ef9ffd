import Marlin.Library.Election
import Marlin.Siphash

/-!
# Forwarding table generation

`fwd_gen.c`: every row of a VIP's block is won by the member with the highest
score for that row.  The weighted score `log(normalise(digest)) / weight` is
floating point in the source; here it is an arbitrary function `score` of digest
and weight into a linear order, fixed for the whole development.
-/

namespace Marlin

open Marlin.Library

structure FwdGenMember where
  backendId : Nat
  weight : Nat
  addr : Be32
  vni : Nat
  innerMac : Mac
  deriving DecidableEq, Repr

instance : Zero FwdGenMember := ⟨⟨0, 0, 0, 0, 0⟩⟩

def buildRowBuf (rowIndex : Nat) : List UInt8 :=
  [UInt8.ofNat rowIndex, UInt8.ofNat (rowIndex >>> 8), UInt8.ofNat (rowIndex >>> 16),
    UInt8.ofNat (rowIndex >>> 24), 0, 0, 0, 0]

def buildScoreBuf (rowSeed : UInt64) (member : FwdGenMember) : List UInt8 :=
  (List.range 8).map (fun k => (rowSeed >>> UInt64.ofNat (8 * k)).toUInt8) ++
    member.addr.bytes ++
    [UInt8.ofNat member.vni, UInt8.ofNat (member.vni >>> 8),
      UInt8.ofNat (member.vni >>> 16), 0] ++
    member.innerMac.bytes ++ [0, 0]

/-- The digest that scores `member` for the row with seed `rowSeed`. -/
def memberDigest (tableSeed : Key16) (rowSeed : UInt64) (member : FwdGenMember) :
    UInt64 :=
  marlindSiphash (buildScoreBuf rowSeed member) 24 tableSeed

/-- The identifier of the elected member; no member, no backend. -/
def winnerId (winner : Option FwdGenMember) : Nat :=
  (winner.map FwdGenMember.backendId).getD marlinNoBackend

def pickRowEqualWeight (tableSeed : Key16) (rowSeed : UInt64)
    (members : List FwdGenMember) : Nat :=
  winnerId (elect (fun m => (memberDigest tableSeed rowSeed m).toNat)
    FwdGenMember.backendId members)

section Score

variable {S : Type} [LinearOrder S] (score : UInt64 → Nat → S)

def pickRowWeighted (tableSeed : Key16) (rowSeed : UInt64)
    (members : List FwdGenMember) : Nat :=
  winnerId (elect (fun m => score (memberDigest tableSeed rowSeed m) m.weight)
    FwdGenMember.backendId members)

/-- Every later weight equals the first one. -/
def equalWeight : List FwdGenMember → Bool
  | [] => true
  | first :: rest => rest.all fun m => m.weight == first.weight

/-- Row `row` of the block that `fwd_gen_block` fills. -/
def fwdGenBlock (tableSeed : Key16) (members : List FwdGenMember) (row : Nat) : Nat :=
  if members.isEmpty then marlinNoBackend
  else
    let rowSeed := marlindSiphash (buildRowBuf row) 8 tableSeed
    if equalWeight members then pickRowEqualWeight tableSeed rowSeed members
    else pickRowWeighted score tableSeed rowSeed members

/-! ## Who can win a row -/

private theorem winnerId_elect_mem {T : Type} [LinearOrder T]
    {f : FwdGenMember → T} {members : List FwdGenMember} (hne : members ≠ []) :
    ∃ m ∈ members, winnerId (elect f FwdGenMember.backendId members) = m.backendId := by
  obtain ⟨m, hm, hmem, -⟩ := elect_spec f FwdGenMember.backendId hne
  exact ⟨m, hmem, by simp [winnerId, hm]⟩

theorem fwdGenBlock_mem (tableSeed : Key16) {members : List FwdGenMember}
    (hne : members ≠ []) (row : Nat) :
    ∃ m ∈ members, fwdGenBlock score tableSeed members row = m.backendId := by
  have hempty : members.isEmpty = false := by simpa using hne
  simp only [fwdGenBlock, hempty, Bool.false_eq_true, if_false]
  split
  · exact winnerId_elect_mem hne
  · exact winnerId_elect_mem hne

@[simp] theorem fwdGenBlock_nil (tableSeed : Key16) (row : Nat) :
    fwdGenBlock score tableSeed [] row = 0 := rfl

/-! ## The order of the members does not matter -/

private theorem winnerId_elect_perm {T : Type} [LinearOrder T]
    {f : FwdGenMember → T} {ms ns : List FwdGenMember} (h : ms.Perm ns) :
    winnerId (elect f FwdGenMember.backendId ms) =
      winnerId (elect f FwdGenMember.backendId ns) := by
  rw [winnerId, winnerId, elect_perm h]

theorem equalWeight_iff (members : List FwdGenMember) :
    equalWeight members = true ↔
      ∀ m ∈ members, ∀ n ∈ members, m.weight = n.weight := by
  cases members with
  | nil => simp [equalWeight]
  | cons first rest =>
      simp only [equalWeight, List.all_eq_true, beq_iff_eq]
      constructor
      · intro h m hm n hn
        have hfirst : ∀ k ∈ first :: rest, k.weight = first.weight := by
          intro k hk
          rcases List.mem_cons.mp hk with rfl | hk
          · rfl
          · exact h k hk
        rw [hfirst m hm, hfirst n hn]
      · intro h m hm
        exact h m (by simp [hm]) first (by simp)

theorem equalWeight_perm {ms ns : List FwdGenMember} (h : ms.Perm ns) :
    equalWeight ms = equalWeight ns := by
  rw [Bool.eq_iff_iff, equalWeight_iff, equalWeight_iff]
  simp only [h.mem_iff]

theorem fwdGenBlock_perm (tableSeed : Key16) {ms ns : List FwdGenMember}
    (h : ms.Perm ns) (row : Nat) :
    fwdGenBlock score tableSeed ms row = fwdGenBlock score tableSeed ns row := by
  have hempty : ms.isEmpty = ns.isEmpty := by
    rw [Bool.eq_iff_iff, List.isEmpty_iff, List.isEmpty_iff]
    exact ⟨fun hms => (hms ▸ h).symm.eq_nil, fun hns => (hns ▸ h).eq_nil⟩
  simp only [fwdGenBlock, hempty, equalWeight_perm h, pickRowEqualWeight,
    pickRowWeighted, winnerId_elect_perm h]

end Score

end Marlin
