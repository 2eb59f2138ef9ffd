import Marlin.Marlind.VipAllocComplete

/-!
# Allocating again what is already allocated

Where every row of `vip_map` points at the block of the entry that owns it, the allocator
leaves every entry where it is and releases nothing.
-/

namespace Marlin

/-- Every row points at the block of its entry, and every entry has a row. -/
structure VipAllocSettled (entries : List (List VipKey)) (baseline : List VipAllocBaseline)
    (num : Nat → Nat) : Prop where
  fair : VipAllocFair entries baseline
  rows : ∀ b ∈ baseline, ∃ i < entries.length,
    vipAllocOwner entries b.key = some i ∧ b.vipNum = num i
  covered : ∀ i < entries.length, ∃ b ∈ baseline, vipAllocOwner entries b.key = some i
  inj : ∀ i < entries.length, ∀ j < entries.length, num i = num j → i = j

/-- The ordering loop where every reference points at the block of its entry. -/
structure VipAllocOrdering.Still (st : VipAllocOrdering) (count : Nat) (num : Nat → Nat) :
    Prop where
  refs : ∀ ref ∈ st.refs, ref.entry < count ∧ ref.num = num ref.entry
  num : ∀ i < count, st.num i = num i

section

variable {entries : List (List VipKey)} {baseline : List VipAllocBaseline} {num : Nat → Nat}
  {count entry : Nat} {st st' : VipAllocOrdering}

theorem VipAllocOrdering.Still.ready (h : st.Still count num)
    (hinj : ∀ i < count, ∀ j < count, num i = num j → i = j) {u : Nat} (hu : u < count) :
    vipAllocBlockReady st.refs (st.num u) u = true := by
  rw [vipAllocBlockReady_iff, h.num u hu]
  intro ref href hnum
  obtain ⟨hentry, hown⟩ := h.refs ref href
  exact hinj ref.entry hentry u hu (hown.symm.trans hnum)

theorem VipAllocOrdering.Still.next (h : st.Still count num)
    (hinj : ∀ i < count, ∀ j < count, num i = num j → i = j)
    (hnext : vipAllocNext st count = some (entry, st')) : st' = st ∧ entry < count := by
  unfold vipAllocNext at hnext
  split at hnext
  · rename_i found hfind
    cases hnext
    exact ⟨rfl, List.mem_range.mp (List.mem_of_find?_eq_some hfind)⟩
  · rename_i hnone
    split at hnext
    · contradiction
    · rename_i first hfirst
      have hlt : first < count := List.mem_range.mp (List.mem_of_find?_eq_some hfirst)
      have hready := h.ready hinj hlt
      have hcond := List.find?_eq_none.mp hnone first (List.mem_range.mpr hlt)
      have hunwritten := List.find?_some hfirst
      simp only [hready, Bool.and_true] at hcond
      exact absurd hunwritten hcond

theorem VipAllocOrdering.Still.commit (h : st.Still count num) (hentry : entry < count) :
    (st.commit entry).Still count num := by
  refine ⟨?_, h.num⟩
  intro ref href
  obtain ⟨old, hold, rfl⟩ := List.mem_map.mp href
  obtain ⟨hlt, hown⟩ := h.refs old hold
  split
  · rename_i heq
    exact ⟨hlt, by rw [h.num entry hentry, heq]⟩
  · exact ⟨hlt, hown⟩

theorem vipAllocOrder_still (hinj : ∀ i < count, ∀ j < count, num i = num j → i = j)
    {remaining : Nat} (h : st.Still count num)
    (hrun : vipAllocOrder count remaining st = some st') :
    st'.num = st.num ∧ st'.used = st.used ∧ st'.Still count num := by
  induction remaining generalizing st with
  | zero =>
      cases hrun
      exact ⟨rfl, rfl, h⟩
  | succ remaining ih =>
      simp only [vipAllocOrder] at hrun
      split at hrun
      · contradiction
      · rename_i entry mid hnext
        obtain ⟨hmid, hentry⟩ := h.next hinj hnext
        rw [hmid] at hrun
        have hrest := ih (h.commit hentry) hrun
        exact hrest

theorem VipAllocSettled.claim (h : VipAllocSettled entries baseline num) :
    ∃ claim, vipAllocClaim entries baseline = some claim ∧
      ∀ i < entries.length, claim.num i = num i := by
  obtain ⟨claim, hclaim, hkeeps⟩ := vipAllocClaim_keeps h.fair
  have hown : ∀ i n, n ∈ vipAllocOwn (vipAllocRefs entries baseline) i →
      i < entries.length ∧ n = num i := by
    intro i n hn
    obtain ⟨b, hb, howner, rfl⟩ := mem_vipAllocRefs.mp (mem_vipAllocOwn.mp hn)
    obtain ⟨j, hj, howner', hnum⟩ := h.rows b hb
    cases howner.symm.trans howner'
    exact ⟨hj, hnum⟩
  refine ⟨claim, hclaim, fun i hi => ?_⟩
  rcases hkeeps i hi with hkept | hothers
  · exact (hown i _ hkept).2
  · obtain ⟨b, hb, howner⟩ := h.covered i hi
    have hmem := mem_vipAllocOwn.mpr (mem_vipAllocRefs.mpr ⟨b, hb, howner, rfl⟩)
    obtain ⟨other, hother, hmem'⟩ := hothers _ hmem
    obtain ⟨hlt, hnum⟩ := hown other _ hmem'
    cases h.inj i hi other hlt ((hown i _ hmem).2.symm.trans hnum)
    rw [hother, hnum]

theorem VipAllocSettled.start_still (h : VipAllocSettled entries baseline num)
    {claim : VipAllocClaim} (hclaim : vipAllocClaim entries baseline = some claim) :
    (VipAllocOrdering.start entries baseline claim).Still entries.length num := by
  obtain ⟨claim', hclaim', hnum⟩ := h.claim
  cases hclaim.symm.trans hclaim'
  refine ⟨?_, hnum⟩
  intro ref href
  obtain ⟨b, hb, howner, hrow⟩ := mem_vipAllocRefs.mp href
  obtain ⟨i, hi, howner', hown⟩ := h.rows b hb
  cases howner.symm.trans howner'
  exact ⟨hi, hrow.symm.trans hown⟩

theorem vipAlloc_settled (h : VipAllocSettled entries baseline num) :
    (∀ i < entries.length, (vipAlloc entries baseline).num i = num i) ∧
      (vipAlloc entries baseline).plan.release = [] := by
  obtain ⟨-, -, claim, st, hclaim, horder, heq⟩ := vipAlloc_ok (vipAlloc_complete h.fair)
  obtain ⟨claim', hclaim', hnum⟩ := h.claim
  cases hclaim.symm.trans hclaim'
  obtain ⟨hsound, -⟩ := vipAllocClaim_sound h.fair.num_lt hclaim
  obtain ⟨hnums, hused, -⟩ := vipAllocOrder_still h.inj (h.start_still hclaim) horder
  rw [heq]
  refine ⟨fun i hi => ?_, ?_⟩
  · change st.num i = num i
    rw [hnums]
    exact hnum i hi
  · change vipAllocRelease baseline st.used = []
    rw [hused, vipAllocRelease, List.filter_eq_nil_iff]
    intro n hn hrelease
    simp only [Bool.and_eq_true, List.any_eq_true, beq_iff_eq, Bool.not_eq_true'] at hrelease
    obtain ⟨⟨b, hb, hrow⟩, hunused⟩ := hrelease
    obtain ⟨i, hi, -, hown⟩ := h.rows b hb
    have hlt : n < maxVips := List.mem_range.mp hn
    have htaken : claim.used n = true :=
      (hsound.used_iff n (ne_unset_of_lt hlt)).mpr ⟨i, by rw [hnum i hi, ← hown, hrow]⟩
    have hfree : claim.used n = false := hunused
    rw [htaken] at hfree
    cases hfree

end

end Marlin
