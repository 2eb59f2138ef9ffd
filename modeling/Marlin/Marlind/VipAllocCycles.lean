import Mathlib.Logic.Relation
import Marlin.Marlind.VipAllocSettled
import Marlin.Marlind.VipAllocValid

/-!
# Only what is on a cycle moves

An entry waits for another that still has an address in the block it claims.  Where every
unwritten entry is blocked, the walk along "blocked by" follows this relation until it meets
itself, so the entry that is moved lies on a cycle, even if the walk began outside of it.
-/

namespace Marlin

/-- Another entry `f` still has a baseline key in the block that `e` claims. -/
def VipAllocWaits (refs : List VipAllocReference) (claim : Nat → Nat) (e f : Nat) : Prop :=
  f ≠ e ∧ claim e ∈ vipAllocOwn refs f

def VipAllocCyclic (refs : List VipAllocReference) (claim : Nat → Nat) (e : Nat) : Prop :=
  Relation.TransGen (VipAllocWaits refs claim) e e

/-- Unwritten entries hold their claims, and an entry that does not lies on a cycle. -/
structure VipAllocOrdering.Loyal (st : VipAllocOrdering) (refs : List VipAllocReference)
    (claim : Nat → Nat) : Prop where
  kept : ∀ i, st.written i = false → st.num i = claim i
  moved : ∀ i, st.num i ≠ claim i → VipAllocCyclic refs claim i

section

variable {refs : List VipAllocReference} {claim : Nat → Nat} {count entry : Nat}
  {st : VipAllocOrdering}

/-- Every entry in `passed` has led to `entry`; with enough rounds to see all the others, the
walk comes back to one of them. -/
theorem VipAllocOrdering.Sound.walk_cyclic (h : st.Sound count refs)
    (hrefs : ∀ ref ∈ refs, ref.entry < count) (hloyal : st.Loyal refs claim)
    (hstuck : st.Stuck count) (fuel : Nat) (seen : Nat → Bool) (passed : Finset Nat)
    (hseen : ∀ i, seen i = true ↔ i ∈ passed) (hlt : ∀ i ∈ passed, i < count)
    (hpath : ∀ i ∈ passed, Relation.TransGen (VipAllocWaits refs claim) i entry)
    (hfuel : count ≤ fuel + passed.card) (hentry : entry < count)
    (hw : st.written entry = false) :
    VipAllocCyclic refs claim (vipAllocWalk st count fuel seen entry) := by
  induction fuel generalizing seen passed entry with
  | zero =>
      -- all entries have been passed, the last one among them
      have hsub : passed ⊆ Finset.range count := fun i hi => Finset.mem_range.mpr (hlt i hi)
      have hall := Finset.eq_of_subset_of_card_le hsub (by rw [Finset.card_range]; omega)
      exact hpath entry (hall ▸ Finset.mem_range.mpr hentry)
  | succ fuel ih =>
      simp only [vipAllocWalk]
      split
      · rename_i hnew
        have hfresh : entry ∉ passed := by
          rw [← hseen, hnew.2]
          exact Bool.false_ne_true
        split
        · rename_i hnone
          have hblocked := hstuck entry hentry hw
          rw [vipAllocBlocker_none hnone] at hblocked
          cases hblocked
        · rename_i b hb
          obtain ⟨hne, ref, href, rfl, hnum⟩ := vipAllocBlocker_some hb
          have hblocks := h.blocks hrefs href hnum hne
          have hwaits : VipAllocWaits refs claim entry ref.entry :=
            ⟨hne, hloyal.kept entry hw ▸ hblocks.points⟩
          apply ih (Function.update seen entry true) (insert entry passed)
          · intro i
            by_cases heq : i = entry
            · simp [heq]
            · simp [heq, hseen i]
          · intro i hi
            rcases Finset.mem_insert.mp hi with rfl | hi
            · exact hentry
            · exact hlt i hi
          · intro i hi
            rcases Finset.mem_insert.mp hi with rfl | hi
            · exact .single hwaits
            · exact (hpath i hi).tail hwaits
          · rw [Finset.card_insert_of_notMem hfresh]
            omega
          · exact hblocks.lt
          · exact hblocks.unwritten
      · rename_i hold
        have hpassed : seen entry = true := by
          by_contra hfresh
          exact hold ⟨hentry, by simpa using hfresh⟩
        exact hpath entry ((hseen entry).mp hpassed)

theorem VipAllocOrdering.Loyal.commit (hloyal : st.Loyal refs claim) :
    (st.commit entry).Loyal refs claim := by
  refine ⟨fun i hi => ?_, hloyal.moved⟩
  by_cases heq : i = entry
  · simp [VipAllocOrdering.commit, heq] at hi
  · exact hloyal.kept i (by simpa [VipAllocOrdering.commit, heq] using hi)

theorem VipAllocOrdering.Loyal.next (hloyal : st.Loyal refs claim) (h : st.Sound count refs)
    (hrefs : ∀ ref ∈ refs, ref.entry < count) {st' : VipAllocOrdering}
    (hnext : vipAllocNext st count = some (entry, st')) :
    (st'.commit entry).Loyal refs claim := by
  unfold vipAllocNext at hnext
  split at hnext
  · cases hnext
    exact hloyal.commit
  · rename_i hnone
    have hstuck : st.Stuck count := by
      intro u hu hw
      have hcond := List.find?_eq_none.mp hnone u (List.mem_range.mpr hu)
      simpa [hw] using hcond
    split at hnext
    · contradiction
    · rename_i first hfirst
      have hlt : first < count := List.mem_range.mp (List.mem_of_find?_eq_some hfirst)
      have hw : st.written first = false := by simpa using List.find?_some hfirst
      have hcyclic := h.walk_cyclic hrefs hloyal hstuck count (fun _ => false) ∅ (by simp)
        (by simp) (by simp) (by simp) hlt hw
      obtain ⟨moved, hmoved, heq⟩ := Option.map_eq_some_iff.mp hnext
      cases heq
      generalize vipAllocWalk st count count (fun _ => false) first = entry at hcyclic hmoved
      unfold vipAllocRelocate at hmoved
      split at hmoved
      · contradiction
      · cases hmoved
        refine ⟨fun i hi => ?_, fun i hi => ?_⟩
        · by_cases heq : i = entry
          · simp [VipAllocOrdering.commit, heq] at hi
          · have hwi : st.written i = false := by
              simpa [VipAllocOrdering.commit, heq] using hi
            simpa [VipAllocOrdering.commit, heq] using hloyal.kept i hwi
        · by_cases heq : i = entry
          · exact heq ▸ hcyclic
          · exact hloyal.moved i (by simpa [VipAllocOrdering.commit, heq] using hi)

theorem vipAllocOrder_loyal {rounds : Nat} {st' : VipAllocOrdering} (hcount : count ≤ maxVips)
    (h : st.Sound count refs) (hrefs : ∀ ref ∈ refs, ref.entry < count)
    (hloyal : st.Loyal refs claim) (hrun : vipAllocOrder count rounds st = some st') :
    st'.Loyal refs claim := by
  induction rounds generalizing st with
  | zero =>
      cases hrun
      exact hloyal
  | succ rounds ih =>
      simp only [vipAllocOrder] at hrun
      split at hrun
      · contradiction
      · rename_i entry mid hnext
        exact ih (h.next hcount hrefs hnext).1 (hloyal.next h hrefs hnext) hrun

end

/-! ## Applied plans -/

def vipAllocApplied (entries : List (List VipKey)) (num : Nat → Nat) : List VipAllocBaseline :=
  (entries.mapIdx fun i keys => keys.map fun k => ⟨k, num i⟩).flatten

section

variable {entries : List (List VipKey)} {num : Nat → Nat}

theorem vipAllocApplied_keys :
    (vipAllocApplied entries num).map VipAllocBaseline.key = entries.flatten := by
  rw [vipAllocApplied, List.map_flatten]
  congr 1
  apply List.ext_getElem
  · simp
  · intro i hi hlt
    simp [Function.comp_def]

theorem mem_vipAllocApplied {b : VipAllocBaseline} (hb : b ∈ vipAllocApplied entries num) :
    ∃ i keys, entries[i]? = some keys ∧ b.key ∈ keys ∧ b.vipNum = num i := by
  obtain ⟨row, hrow, hmem⟩ := List.mem_flatten.mp hb
  obtain ⟨i, hi, rfl⟩ := List.mem_mapIdx.mp hrow
  obtain ⟨k, hk, rfl⟩ := List.mem_map.mp hmem
  exact ⟨i, entries[i], List.getElem?_eq_getElem hi, hk, rfl⟩

theorem vipAllocApplied_mem {i : Nat} {keys : List VipKey} (hi : entries[i]? = some keys)
    {k : VipKey} (hk : k ∈ keys) : ⟨k, num i⟩ ∈ vipAllocApplied entries num := by
  obtain ⟨hlt, rfl⟩ := List.getElem?_eq_some_iff.mp hi
  exact List.mem_flatten.mpr
    ⟨_, List.mem_mapIdx.mpr ⟨i, hlt, rfl⟩, List.mem_map.mpr ⟨k, hk, rfl⟩⟩

theorem VipAllocValid.applied {baseline rows : List VipAllocBaseline}
    (h : VipAllocValid entries baseline) (hnum : ∀ i < entries.length, num i < maxVips)
    (hrows : rows.Perm (vipAllocApplied entries num)) : VipAllocValid entries rows where
  nonempty := h.nonempty
  keys_distinct := h.keys_distinct
  count := h.count
  rows := by
    rw [hrows.length_eq, ← List.length_map VipAllocBaseline.key, vipAllocApplied_keys]
    exact h.count
  rows_distinct := by
    have hsymm : ∀ {a b : VipAllocBaseline}, vipAllocKeyEq a.key b.key = false →
        vipAllocKeyEq b.key a.key = false := by
      intro a b hab
      rw [Bool.eq_false_iff] at hab ⊢
      exact fun hba => hab (vipKeyEq_symm hba)
    rw [hrows.pairwise_iff hsymm]
    apply (List.pairwise_map (f := VipAllocBaseline.key)
      (R := fun a b => vipAllocKeyEq a b = false)).mp
    rw [vipAllocApplied_keys]
    exact h.keys_distinct
  num_lt := by
    intro b hb
    obtain ⟨i, keys, hi, -, hrow⟩ := mem_vipAllocApplied (hrows.mem_iff.mp hb)
    rw [hrow]
    exact hnum i (List.getElem?_eq_some_iff.mp hi).1

theorem VipAllocValid.settled {rows : List VipAllocBaseline} (h : VipAllocValid entries rows)
    (hinj : ∀ i < entries.length, ∀ j < entries.length, num i = num j → i = j)
    (hrows : rows.Perm (vipAllocApplied entries num)) : VipAllocSettled entries rows num where
  fair := h.fair
  rows := by
    intro b hb
    obtain ⟨i, keys, hi, hk, hrow⟩ := mem_vipAllocApplied (hrows.mem_iff.mp hb)
    exact ⟨i, (List.getElem?_eq_some_iff.mp hi).1, h.owner hi hk (vipKeyEq_refl _), hrow⟩
  covered := by
    intro i hi
    obtain ⟨k, hk⟩ := List.exists_mem_of_ne_nil _ (h.nonempty _ (List.getElem_mem hi))
    have hentry : entries[i]? = some entries[i] := List.getElem?_eq_getElem hi
    exact ⟨⟨k, num i⟩, hrows.mem_iff.mpr (vipAllocApplied_mem hentry hk),
      h.owner hentry hk (vipKeyEq_refl _)⟩
  inj := hinj

end

/-- The entries that lie on no cycle keep the blocks they claim; and once a plan has been
applied, whatever the order of its rows, allocating again changes, moves and releases nothing. -/
theorem vipAlloc_keeps (entries : List (List VipKey)) (baseline : List VipAllocBaseline)
    (h : VipAllocValid entries baseline) :
    (∃ claim, vipAllocClaim entries baseline = some claim ∧
      (∀ e < entries.length, ¬ VipAllocCyclic (vipAllocRefs entries baseline) claim.num e →
        (vipAlloc entries baseline).num e = claim.num e) ∧
      ((∀ e, ¬ VipAllocCyclic (vipAllocRefs entries baseline) claim.num e) →
        ∀ e < entries.length, (vipAlloc entries baseline).num e = claim.num e)) ∧
    ∀ rows : List VipAllocBaseline,
      rows.Perm (vipAllocApplied entries (vipAlloc entries baseline).num) →
        (vipAlloc entries rows).ok = true ∧
        (∀ e < entries.length, (vipAlloc entries rows).num e = (vipAlloc entries baseline).num e) ∧
        (vipAlloc entries rows).plan.release = [] ∧
        ∀ claim st, VipAllocReaches entries rows claim st → ∀ u < entries.length,
          st.written u = false → vipAllocBlockReady st.refs (st.num u) u = true := by
  have hok := vipAlloc_complete h.fair
  have hshaped := vipAlloc_shaped hok
  constructor
  · obtain ⟨hcount, hnums, claim, st, hclaim, hrun, heq⟩ := vipAlloc_ok hok
    obtain ⟨hsound, hset⟩ := vipAllocClaim_sound hnums hclaim
    have hstart : (VipAllocOrdering.start entries baseline claim).Loyal
        (vipAllocRefs entries baseline) claim.num :=
      ⟨fun _ _ => rfl, fun _ hmoved => absurd rfl hmoved⟩
    have hloyal := vipAllocOrder_loyal hcount (VipAllocOrdering.start_sound hsound hset)
      vipAllocRefs_lt hstart hrun
    have hkept : ∀ e < entries.length,
        ¬ VipAllocCyclic (vipAllocRefs entries baseline) claim.num e →
          (vipAlloc entries baseline).num e = claim.num e := by
      intro e _ hcyclic
      rw [heq]
      by_contra hmoved
      exact hcyclic (hloyal.moved e hmoved)
    exact ⟨claim, hclaim, hkept, fun hacyclic e he => hkept e he (hacyclic e)⟩
  · intro rows hrows
    have hvalid := h.applied hshaped.num_lt hrows
    have hsettled := hvalid.settled hshaped.num_inj hrows
    obtain ⟨hsame, hrelease⟩ := vipAlloc_settled hsettled
    refine ⟨vipAlloc_complete hvalid.fair, hsame, hrelease, ?_⟩
    rintro claim st ⟨hclaim, rounds, hrun⟩ u hu -
    exact (vipAllocOrder_still hsettled.inj (hsettled.start_still hclaim) hrun).2.2.ready
      hsettled.inj hu

namespace Sample

def bridgedEntries : List (List VipKey) := crossedEntries ++ [[vipKey 5, vipKey 6]]

def bridgedBaseline : List VipAllocBaseline :=
  crossedBaseline ++ [⟨vipKey 5, 2⟩, ⟨vipKey 6, 0⟩]

theorem bridged_not_cyclic {claim : VipAllocClaim}
    (hclaim : vipAllocClaim bridgedEntries bridgedBaseline = some claim) :
    claim.num 2 = 2 ∧
      ¬VipAllocCyclic (vipAllocRefs bridgedEntries bridgedBaseline) claim.num 2 := by
  have hnum : (vipAllocClaim bridgedEntries bridgedBaseline).map (·.num 2) = some 2 := by
    decide
  have hown : ∀ ref ∈ vipAllocRefs bridgedEntries bridgedBaseline, ref.num = 2 →
      ref.entry = 2 := by
    decide
  rw [hclaim, Option.map_some, Option.some.injEq] at hnum
  refine ⟨hnum, fun hcyclic => ?_⟩
  obtain ⟨f, ⟨hne, hwaits⟩, -⟩ := Relation.TransGen.head'_iff.mp hcyclic
  rw [hnum, mem_vipAllocOwn] at hwaits
  exact hne (hown _ hwaits rfl)

end Sample

/-- The third entry stays where it is while the first two leave their cycle, and the plan that
comes of it stays as it is. -/
theorem vipAlloc_keeps_crossed :
    (vipAlloc Sample.bridgedEntries Sample.bridgedBaseline).num 2 = 2 ∧
    (vipAlloc Sample.bridgedEntries (vipAllocApplied Sample.bridgedEntries
      (vipAlloc Sample.bridgedEntries Sample.bridgedBaseline).num).reverse).plan.release =
        [] := by
  obtain ⟨⟨claim, hclaim, hkept, -⟩, hagain⟩ :=
    vipAlloc_keeps Sample.bridgedEntries Sample.bridgedBaseline (by decide)
  obtain ⟨hnum, hcyclic⟩ := Sample.bridged_not_cyclic hclaim
  exact ⟨(hkept 2 (by decide) hcyclic).trans hnum, (hagain _ (List.reverse_perm _)).2.2.1⟩

end Marlin
