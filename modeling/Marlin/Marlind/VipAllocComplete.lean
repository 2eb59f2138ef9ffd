import Mathlib.Algebra.BigOperators.Group.Finset.Basic
import Mathlib.Algebra.Order.BigOperators.Group.Finset
import Marlin.Marlind.VipAllocPlan

/-!
# The allocator always finds a plan

With at most `MAX_VIPS` keys in all, `vip_alloc` never gives up.  The argument counts
blocks against keys.  An entry that keeps a block it already points at can point at no
more blocks than it has keys; an entry that could not keep one points only at blocks that
other entries kept.  So the blocks that are assigned or referenced number at most the keys,
and where every entry is blocked, two of the entries share one.
-/

namespace Marlin

def vipAllocOwn (refs : List VipAllocReference) (entry : Nat) : Finset Nat :=
  ((refs.filter fun ref => ref.entry == entry).map VipAllocReference.num).toFinset

theorem mem_vipAllocOwn {refs : List VipAllocReference} {entry n : Nat} :
    n ∈ vipAllocOwn refs entry ↔ (⟨entry, n⟩ : VipAllocReference) ∈ refs := by
  simp only [vipAllocOwn, List.mem_toFinset, List.mem_map, List.mem_filter, beq_iff_eq]
  constructor
  · rintro ⟨⟨e, m⟩, ⟨href, rfl⟩, rfl⟩
    exact href
  · intro href
    exact ⟨⟨entry, n⟩, ⟨href, rfl⟩, rfl⟩

/-- What the allocator may rely on: every key is an entry's alone, and no entry points at
more blocks than it has keys. -/
structure VipAllocFair (entries : List (List VipKey)) (baseline : List VipAllocBaseline) :
    Prop where
  nonempty : ∀ keys ∈ entries, keys ≠ []
  count : entries.flatten.length ≤ maxVips
  rows : baseline.length ≤ maxVips
  num_lt : ∀ b ∈ baseline, b.vipNum < maxVips
  owner : ∀ i keys, entries[i]? = some keys → ∀ k ∈ keys, ∀ b ∈ baseline,
    vipAllocKeyEq k b.key = true → vipAllocOwner entries b.key = some i
  card : ∀ i keys, entries[i]? = some keys →
    (vipAllocOwn (vipAllocRefs entries baseline) i).card ≤ keys.length

/-! ## Claims -/

section Claims

variable {entries : List (List VipKey)} {baseline : List VipAllocBaseline}

/-- An entry keeps one of its own blocks, or each of them has been kept by another entry. -/
def VipAllocClaim.Keeps (st : VipAllocClaim) (refs : List VipAllocReference) (entry : Nat) :
    Prop :=
  st.num entry ∈ vipAllocOwn refs entry ∨
    ∀ n ∈ vipAllocOwn refs entry, ∃ other, st.num other = n ∧ n ∈ vipAllocOwn refs other

structure VipAllocClaim.Retaining (st : VipAllocClaim) (refs : List VipAllocReference)
    (done : List Nat) : Prop where
  own : ∀ entry, st.num entry ≠ vipAllocNumUnset → st.num entry ∈ vipAllocOwn refs entry
  taken : ∀ entry ∈ done, st.num entry = vipAllocNumUnset →
    ∀ n ∈ vipAllocOwn refs entry, st.used n = true

theorem vipAllocMatch_none {keys : List VipKey} {used : Nat → Bool} {i n : Nat}
    (hi : entries[i]? = some keys) (h : vipAllocMatch keys baseline used = none)
    (hn : n ∈ vipAllocOwn (vipAllocRefs entries baseline) i) : used n = true := by
  obtain ⟨b, hb, howner, rfl⟩ := mem_vipAllocRefs.mp (mem_vipAllocOwn.mp hn)
  obtain ⟨hlt, k, hk, heq⟩ := vipAllocOwner_some howner
  have hkeys : entries[i] = keys := (List.getElem?_eq_some_iff.mp hi).2
  rw [hkeys] at hk
  have hnone := List.findSome?_eq_none_iff.mp h k hk
  rw [Option.map_eq_none_iff, List.find?_eq_none] at hnone
  have hrow := hnone b hb
  simpa [heq] using hrow

theorem vipAllocMatch_own (hfair : VipAllocFair entries baseline) {keys : List VipKey}
    {used : Nat → Bool} {i n : Nat} (hi : entries[i]? = some keys)
    (h : vipAllocMatch keys baseline used = some n) :
    used n = false ∧ n ∈ vipAllocOwn (vipAllocRefs entries baseline) i := by
  obtain ⟨k, hk, hfind⟩ := List.exists_of_findSome?_eq_some h
  obtain ⟨b, hb, rfl⟩ := Option.map_eq_some_iff.mp hfind
  have hcond := List.find?_some hb
  simp only [Bool.and_eq_true, Bool.not_eq_true'] at hcond
  have hmem := List.mem_of_find?_eq_some hb
  exact ⟨hcond.1, mem_vipAllocOwn.mpr (mem_vipAllocRefs.mpr
    ⟨b, hmem, hfair.owner i keys hi k hk b hmem hcond.2, rfl⟩)⟩

private theorem vipAllocRetain_retaining (hfair : VipAllocFair entries baseline)
    {st : VipAllocClaim} {done : List Nat} {i : Nat} {keys : List VipKey}
    (hi : entries[i]? = some keys) (hunset : st.num i = vipAllocNumUnset)
    (h : st.Retaining (vipAllocRefs entries baseline) done) :
    (vipAllocRetain baseline st (i, keys)).Retaining (vipAllocRefs entries baseline)
      (done ++ [i]) := by
  cases hmatch : vipAllocMatch keys baseline st.used with
  | none =>
      have hsame : vipAllocRetain baseline st (i, keys) = st := by
        simp only [vipAllocRetain, hmatch]
        rw [← hunset, Function.update_eq_self]
      rw [hsame]
      refine ⟨h.own, fun entry hentry hset n hn => ?_⟩
      rcases List.mem_append.mp hentry with hentry | hentry
      · exact h.taken entry hentry hset n hn
      · rw [List.mem_singleton.mp hentry] at hn
        exact vipAllocMatch_none hi hmatch hn
  | some num =>
      obtain ⟨hfree, hown⟩ := vipAllocMatch_own hfair hi hmatch
      have hstep : vipAllocRetain baseline st (i, keys) = st.assign i num := by
        simp only [vipAllocRetain, hmatch]
      have hlt : num < maxVips := by
        obtain ⟨b, hb, -, rfl⟩ := mem_vipAllocRefs.mp (mem_vipAllocOwn.mp hown)
        exact hfair.num_lt b hb
      rw [hstep]
      refine ⟨fun entry hset => ?_, fun entry hentry hset n hn => ?_⟩
      · by_cases heq : entry = i
        · subst heq
          simpa [VipAllocClaim.assign] using hown
        · simp only [VipAllocClaim.assign, Function.update_of_ne heq] at hset ⊢
          exact h.own entry hset
      · by_cases heq : entry = i
        · subst heq
          simp only [VipAllocClaim.assign, Function.update_self] at hset
          exact absurd hset (ne_unset_of_lt hlt)
        · simp only [VipAllocClaim.assign, Function.update_of_ne heq] at hset
          have hused := h.taken entry (by simpa [heq] using hentry) hset n hn
          by_cases hn' : n = num
          · simp [VipAllocClaim.assign, hn']
          · simpa [VipAllocClaim.assign, Function.update_of_ne hn'] using hused

private theorem vipAllocRetain_num_ne {st : VipAllocClaim} {p : Nat × List VipKey} {entry : Nat}
    (hne : entry ≠ p.1) : (vipAllocRetain baseline st p).num entry = st.num entry := by
  unfold vipAllocRetain
  split <;> simp [VipAllocClaim.assign, hne]

private theorem vipAllocRetain_foldl (hfair : VipAllocFair entries baseline)
    (todo : List (Nat × List VipKey)) (hentries : ∀ p ∈ todo, entries[p.1]? = some p.2)
    (hnodup : (todo.map Prod.fst).Nodup) (st : VipAllocClaim) (done : List Nat)
    (hunset : ∀ p ∈ todo, st.num p.1 = vipAllocNumUnset)
    (h : st.Retaining (vipAllocRefs entries baseline) done) :
    (todo.foldl (vipAllocRetain baseline) st).Retaining (vipAllocRefs entries baseline)
      (done ++ todo.map Prod.fst) := by
  induction todo generalizing st done with
  | nil => simpa using h
  | cons p todo ih =>
      simp only [List.map_cons, List.nodup_cons] at hnodup
      have hstep := vipAllocRetain_retaining hfair (hentries p (by simp)) (hunset p (by simp)) h
      rw [List.foldl_cons, List.map_cons, List.append_cons]
      refine ih (fun q hq => hentries q (by simp [hq])) hnodup.2 _ _ (fun q hq => ?_) hstep
      have hne : q.1 ≠ p.1 := fun heq => hnodup.1 (heq ▸ List.mem_map_of_mem hq)
      rw [vipAllocRetain_num_ne hne]
      exact hunset q (by simp [hq])

private theorem vipAllocFresh_some {st : VipAllocClaim} {count entry : Nat}
    (h : st.Sound count) (hcount : count ≤ maxVips) (hentry : entry < count) :
    ∃ st', vipAllocFresh st entry = some st' := by
  unfold vipAllocFresh
  split
  · exact ⟨st, rfl⟩
  · rename_i hset
    have hunset : st.num entry = vipAllocNumUnset := not_not.mp hset
    cases hfind : (List.range maxVips).find? fun num => !st.used num with
    | some num => exact ⟨_, rfl⟩
    | none =>
        exfalso
        have hall : ∀ n < maxVips, ∃ e ∈ (Finset.range count).erase entry, st.num e = n := by
          intro n hn
          have hused : st.used n = true := by
            simpa using List.find?_eq_none.mp hfind n (List.mem_range.mpr hn)
          obtain ⟨e, he⟩ := (h.used_iff n (ne_unset_of_lt hn)).mp hused
          have hbound := h.bound e (he ▸ ne_unset_of_lt hn)
          refine ⟨e, Finset.mem_erase.mpr ⟨?_, Finset.mem_range.mpr hbound.1⟩, he⟩
          rintro rfl
          exact ne_unset_of_lt hn (he.symm.trans hunset)
        have hsub : Finset.range maxVips ⊆ ((Finset.range count).erase entry).image st.num := by
          intro n hn
          obtain ⟨e, he, hnum⟩ := hall n (Finset.mem_range.mp hn)
          exact Finset.mem_image.mpr ⟨e, he, hnum⟩
        have hcard := (Finset.card_le_card hsub).trans Finset.card_image_le
        rw [Finset.card_range, Finset.card_erase_of_mem (Finset.mem_range.mpr hentry),
          Finset.card_range] at hcard
        omega

private theorem vipAllocFresh_foldlM_some {count : Nat} (hcount : count ≤ maxVips)
    (todo : List Nat) (hlt : ∀ e ∈ todo, e < count) {st : VipAllocClaim} (h : st.Sound count) :
    ∃ st', todo.foldlM vipAllocFresh st = some st' := by
  induction todo generalizing st with
  | nil => exact ⟨st, rfl⟩
  | cons entry todo ih =>
      obtain ⟨mid, hmid⟩ := vipAllocFresh_some h hcount (hlt entry (by simp))
      obtain ⟨hsound, -, -⟩ := vipAllocFresh_sound h (hlt entry (by simp)) hmid
      obtain ⟨st', hst'⟩ := ih (fun e he => hlt e (by simp [he])) hsound
      exact ⟨st', by rw [List.foldlM_cons, hmid]; exact hst'⟩

theorem VipAllocFair.entries_length (hfair : VipAllocFair entries baseline) :
    entries.length ≤ maxVips := by
  refine Nat.le_trans ?_ hfair.count
  rw [List.length_flatten]
  have hone : ∀ n ∈ entries.map List.length, 1 ≤ n := by
    intro n hn
    obtain ⟨keys, hkeys, rfl⟩ := List.mem_map.mp hn
    exact List.length_pos_iff.mpr (hfair.nonempty keys hkeys)
  have hsum := List.length_le_sum_of_one_le _ hone
  simpa using hsum

theorem vipAllocClaim_keeps (hfair : VipAllocFair entries baseline) :
    ∃ claim, vipAllocClaim entries baseline = some claim ∧
      ∀ i < entries.length, claim.Keeps (vipAllocRefs entries baseline) i := by
  have hcount := hfair.entries_length
  have hfst : ((List.range entries.length).zip entries).map Prod.fst =
      List.range entries.length := List.map_fst_zip (by simp)
  have hzip : ∀ p ∈ (List.range entries.length).zip entries, entries[p.1]? = some p.2 := by
    intro p hp
    obtain ⟨i, hi, rfl⟩ := List.mem_iff_getElem.mp hp
    simp
  have hretained := vipAllocRetain_sound hfair.num_lt
    ((List.range entries.length).zip entries)
    (fun p hp => List.mem_range.mp (List.of_mem_zip hp).1)
    (by rw [hfst]; exact List.nodup_range) (VipAllocClaim.Sound.initial entries.length)
    (fun _ _ => rfl)
  have hloop := vipAllocRetain_foldl hfair ((List.range entries.length).zip entries) hzip
    (by rw [hfst]; exact List.nodup_range)
    ⟨fun _ => false, fun _ => vipAllocNumUnset⟩ [] (fun _ _ => rfl)
    ⟨fun _ h => absurd rfl h, by simp⟩
  obtain ⟨claim, hclaim⟩ := vipAllocFresh_foldlM_some hcount (List.range entries.length)
    (fun e he => List.mem_range.mp he) hretained
  obtain ⟨-, -, hkept⟩ := vipAllocFresh_foldlM (List.range entries.length)
    (fun e he => List.mem_range.mp he) hretained hclaim
  refine ⟨claim, hclaim, fun i hi => ?_⟩
  rw [hfst, List.nil_append] at hloop
  by_cases hset : (((List.range entries.length).zip entries).foldl (vipAllocRetain baseline)
      ⟨fun _ => false, fun _ => vipAllocNumUnset⟩).num i = vipAllocNumUnset
  · right
    intro n hn
    have hlt : n < maxVips := by
      obtain ⟨b, hb, -, rfl⟩ := mem_vipAllocRefs.mp (mem_vipAllocOwn.mp hn)
      exact hfair.num_lt b hb
    have hused := hloop.taken i (List.mem_range.mpr hi) hset n hn
    obtain ⟨other, hother⟩ := (hretained.used_iff n (ne_unset_of_lt hlt)).mp hused
    have hset' := hother ▸ ne_unset_of_lt hlt
    exact ⟨other, (hkept other hset').trans hother, hother ▸ hloop.own other hset'⟩
  · left
    rw [hkept i hset]
    exact hloop.own i hset

end Claims

/-! ## Blocked entries -/

section Ordering

variable {entries : List (List VipKey)} {refs : List VipAllocReference} {count : Nat}
  {claim : Nat → Nat} {st : VipAllocOrdering}

def vipAllocKeys (entries : List (List VipKey)) (entry : Nat) : Nat :=
  (entries.getD entry []).length

/-- An entry still has the block it claimed, or it has been written; and one that gave up a
block of its own has keys to spare. -/
structure VipAllocOrdering.Paying (st : VipAllocOrdering) (entries : List (List VipKey))
    (refs : List VipAllocReference) (claim : Nat → Nat) : Prop where
  kept : ∀ i, st.written i = false → st.num i = claim i
  moved : ∀ i, st.written i = true → claim i ∈ vipAllocOwn refs i → st.num i ≠ claim i →
    2 ≤ vipAllocKeys entries i

/-- Why `maxVips` blocks suffice: no entry claims or points at more of them than its keys pay
for, where an entry that kept none of its own points at blocks that others kept. -/
structure VipAllocBudget (entries : List (List VipKey)) (refs : List VipAllocReference)
    (count : Nat) (claim : Nat → Nat) : Prop where
  refs_lt : ∀ ref ∈ refs, ref.entry < count
  keeps : ∀ i < count, claim i ∈ vipAllocOwn refs i ∨ ∀ n ∈ vipAllocOwn refs i,
    ∃ j < count, claim j = n ∧ n ∈ vipAllocOwn refs j
  inj : ∀ i j, i < count → j < count → claim i = claim j → i = j
  one : ∀ i < count, 1 ≤ vipAllocKeys entries i
  card : ∀ i < count, (vipAllocOwn refs i).card ≤ vipAllocKeys entries i
  sum : ∑ i ∈ Finset.range count, vipAllocKeys entries i ≤ maxVips

theorem VipAllocBudget.count_le (h : VipAllocBudget entries refs count claim) :
    count ≤ maxVips := by
  calc count = ∑ _i ∈ Finset.range count, 1 := by simp
    _ ≤ ∑ i ∈ Finset.range count, vipAllocKeys entries i :=
      Finset.sum_le_sum fun i hi => h.one i (Finset.mem_range.mp hi)
    _ ≤ maxVips := h.sum

structure VipAllocOrdering.Blocks (st : VipAllocOrdering) (refs : List VipAllocReference)
    (count b u : Nat) : Prop where
  ne : b ≠ u
  lt : b < count
  unwritten : st.written b = false
  points : st.num u ∈ vipAllocOwn refs b

theorem VipAllocOrdering.Sound.blocks (h : st.Sound count refs)
    (hrefs : ∀ ref ∈ refs, ref.entry < count) {ref : VipAllocReference} (href : ref ∈ st.refs)
    {u : Nat} (hnum : ref.num = st.num u) (hne : ref.entry ≠ u) :
    st.Blocks refs count ref.entry u := by
  rw [h.refs_eq] at href
  obtain ⟨orig, horig, rfl⟩ := List.mem_map.mp href
  have hlt := hrefs orig horig
  by_cases hw : st.written orig.entry = true
  · -- a written entry points at its own block only
    simp only [VipAllocReference.follow, hw, if_true] at hnum hne
    exact absurd (h.claim.inj orig.entry u (h.set _ hlt) hnum) hne
  · simp only [VipAllocReference.follow, hw, if_false, Bool.false_eq_true] at hnum hne ⊢
    exact ⟨hne, hlt, by simpa using hw, mem_vipAllocOwn.mpr (hnum ▸ horig)⟩

theorem VipAllocOrdering.Paying.keeper_blocks (hpay : st.Paying entries refs claim)
    (hbudget : VipAllocBudget entries refs count claim)
    (hstuck : ∀ u < count, st.written u = false → ∃ b, st.Blocks refs count b u) {u : Nat}
    (hu : u < count) (hw : st.written u = false) :
    ∃ b u, u < count ∧ st.written u = false ∧ st.Blocks refs count b u ∧
      claim b ∈ vipAllocOwn refs b := by
  obtain ⟨b, hb⟩ := hstuck u hu hw
  by_cases hown : claim b ∈ vipAllocOwn refs b
  · exact ⟨b, u, hu, hw, hb, hown⟩
  · -- `b` kept nothing, so whoever blocks `b` must have kept a block
    obtain ⟨c, hc⟩ := hstuck b hb.lt hb.unwritten
    refine ⟨c, b, hb.lt, hb.unwritten, hc, ?_⟩
    by_contra hnot
    have hpoints := hc.points
    rw [hpay.kept b hb.unwritten] at hpoints
    obtain ⟨j, hj, hnum, hkept⟩ := (hbudget.keeps c hc.lt).resolve_left hnot _ hpoints
    have heq := hbudget.inj j b hj hb.lt hnum
    rw [heq] at hkept
    exact hown hkept

private def paidBlocks (st : VipAllocOrdering) (refs : List VipAllocReference) (claim : Nat → Nat)
    (i : Nat) : Finset Nat :=
  if st.written i = true then
    insert (st.num i) (if claim i ∈ vipAllocOwn refs i then {claim i} else ∅)
  else if claim i ∈ vipAllocOwn refs i then vipAllocOwn refs i else {claim i}

private theorem num_mem_paidBlocks (hpay : st.Paying entries refs claim) (i : Nat) :
    st.num i ∈ paidBlocks st refs claim i := by
  unfold paidBlocks
  split
  · exact Finset.mem_insert_self _ _
  · rename_i hw
    rw [hpay.kept i (by simpa using hw)]
    split
    · assumption
    · exact Finset.mem_singleton_self _

private theorem claim_mem_paidBlocks {i : Nat} (hown : claim i ∈ vipAllocOwn refs i) :
    claim i ∈ paidBlocks st refs claim i := by
  unfold paidBlocks
  split
  · exact Finset.mem_insert_of_mem (Finset.mem_singleton_self _)
  · exact hown

private theorem card_paidBlocks (hpay : st.Paying entries refs claim) {i : Nat}
    (hkeys : 1 ≤ vipAllocKeys entries i)
    (hcard : (vipAllocOwn refs i).card ≤ vipAllocKeys entries i) :
    (paidBlocks st refs claim i).card ≤ vipAllocKeys entries i := by
  unfold paidBlocks
  split
  · rename_i hw
    split
    · rename_i hown
      by_cases hsame : st.num i = claim i
      · simpa [hsame] using hkeys
      · have htwo := hpay.moved i hw hown hsame
        rwa [Finset.card_pair hsame]
    · simpa using hkeys
  · split
    · exact hcard
    · simpa using hkeys

/-- Where every entry is blocked, some block is neither assigned nor referenced. -/
theorem VipAllocOrdering.Sound.exists_free (h : st.Sound count refs)
    (hpay : st.Paying entries refs claim) (hbudget : VipAllocBudget entries refs count claim)
    (hstuck : ∀ u < count, st.written u = false → ∃ b, st.Blocks refs count b u)
    {first : Nat} (hfirst : first < count) (hw : st.written first = false) :
    ∃ n < maxVips, st.used n = false ∧ ∀ ref ∈ st.refs, ref.num ≠ n := by
  obtain ⟨b, u, hu, hwu, hb, hown⟩ := hpay.keeper_blocks hbudget hstuck hfirst hw
  have hclaimu : st.num u = claim u := hpay.kept u hwu
  -- `b` need not pay for the block of `u`
  let paid : Nat → Finset Nat := fun i =>
    if i = b then (vipAllocOwn refs b).erase (claim u) else paidBlocks st refs claim i
  have hpaid : ∀ i < count, paidBlocks st refs claim i ⊆ (Finset.range count).biUnion paid := by
    intro i hi n hn
    rw [Finset.mem_biUnion]
    by_cases hib : i = b
    · rw [hib, paidBlocks, if_neg (by simp [hb.unwritten]), if_pos hown] at hn
      by_cases hnu : n = claim u
      · refine ⟨u, Finset.mem_range.mpr hu, ?_⟩
        simp only [paid, if_neg hb.ne.symm]
        rw [hnu, ← hclaimu]
        exact num_mem_paidBlocks hpay u
      · exact ⟨b, Finset.mem_range.mpr hb.lt, by simp [paid, hnu, hn]⟩
    · exact ⟨i, Finset.mem_range.mpr hi, by simpa only [paid, if_neg hib] using hn⟩
  have hfew : ((Finset.range count).biUnion paid).card < (Finset.range maxVips).card := by
    rw [Finset.card_range]
    refine lt_of_le_of_lt Finset.card_biUnion_le (lt_of_lt_of_le ?_ hbudget.sum)
    refine Finset.sum_lt_sum (fun i hi => ?_) ⟨b, Finset.mem_range.mpr hb.lt, ?_⟩
    · have hi' := Finset.mem_range.mp hi
      by_cases hib : i = b
      · simp only [paid, if_pos hib]
        rw [hib]
        exact (Finset.card_erase_le).trans (hbudget.card b hb.lt)
      · simp only [paid, if_neg hib]
        exact card_paidBlocks hpay (hbudget.one i hi') (hbudget.card i hi')
    · have hpoints := hclaimu ▸ hb.points
      simp only [paid, if_true]
      exact lt_of_lt_of_le (Finset.card_erase_lt_of_mem hpoints) (hbudget.card b hb.lt)
  obtain ⟨n, hn, hnot⟩ := Finset.exists_mem_notMem_of_card_lt_card hfew
  have hlt := Finset.mem_range.mp hn
  have hassigned : ∀ e, st.num e ≠ n := by
    intro e he
    have hset : st.num e ≠ vipAllocNumUnset := he ▸ ne_unset_of_lt hlt
    exact hnot (hpaid e (h.claim.bound e hset).1 (he ▸ num_mem_paidBlocks hpay e))
  refine ⟨n, hlt, ?_, ?_⟩
  · rw [Bool.eq_false_iff, ne_eq, h.claim.used_iff n (ne_unset_of_lt hlt)]
    rintro ⟨e, he⟩
    exact hassigned e he
  · intro ref href hnum
    rw [h.refs_eq] at href
    obtain ⟨orig, horig, rfl⟩ := List.mem_map.mp href
    have hentry := hbudget.refs_lt orig horig
    by_cases hwr : st.written orig.entry = true
    · simp only [VipAllocReference.follow, hwr, if_true] at hnum
      exact hassigned orig.entry hnum
    · simp only [VipAllocReference.follow, hwr, if_false, Bool.false_eq_true] at hnum
      have hpoints : n ∈ vipAllocOwn refs orig.entry := mem_vipAllocOwn.mpr (hnum ▸ horig)
      by_cases hkept : claim orig.entry ∈ vipAllocOwn refs orig.entry
      · refine hnot (hpaid orig.entry hentry ?_)
        rwa [paidBlocks, if_neg hwr, if_pos hkept]
      · obtain ⟨j, hj, rfl, hownj⟩ := (hbudget.keeps _ hentry).resolve_left hkept n hpoints
        exact hnot (hpaid j hj (claim_mem_paidBlocks hownj))

/-! ## The ordering loop -/

theorem vipAllocBlocker_none {refs : List VipAllocReference} {num entry : Nat}
    (h : vipAllocBlocker refs num entry = none) : vipAllocBlockReady refs num entry = true := by
  rw [vipAllocBlocker, Option.map_eq_none_iff, List.find?_eq_none] at h
  rw [vipAllocBlockReady_iff]
  intro ref href hnum
  have hcond := h ref href
  simpa [hnum] using hcond

theorem vipAllocNext_unwritten {entry : Nat} {st' : VipAllocOrdering}
    (h : vipAllocNext st count = some (entry, st')) : ∃ u < count, st.written u = false := by
  unfold vipAllocNext at h
  split at h
  · rename_i found hfind
    have hcond := List.find?_some hfind
    simp only [Bool.and_eq_true, Bool.not_eq_true'] at hcond
    exact ⟨found, List.mem_range.mp (List.mem_of_find?_eq_some hfind), hcond.1⟩
  · split at h
    · contradiction
    · rename_i first hfirst
      exact ⟨first, List.mem_range.mp (List.mem_of_find?_eq_some hfirst),
        by simpa using List.find?_some hfirst⟩

theorem VipAllocOrdering.Sound.walk_blocks (h : st.Sound count refs)
    (hrefs : ∀ ref ∈ refs, ref.entry < count)
    (hready : ∀ u < count, st.written u = false →
      vipAllocBlockReady st.refs (st.num u) u = false)
    (fuel : Nat) (seen : Nat → Bool) {entry : Nat} (hentry : entry < count)
    (hw : st.written entry = false)
    (hfrom : (∃ y < count, st.written y = false ∧ st.Blocks refs count entry y) ∨
      (fuel ≠ 0 ∧ seen entry = false)) :
    ∃ y < count, st.written y = false ∧
      st.Blocks refs count (vipAllocWalk st count fuel seen entry) y := by
  induction fuel generalizing seen entry with
  | zero => exact hfrom.resolve_right fun hno => hno.1 rfl
  | succ fuel ih =>
      simp only [vipAllocWalk]
      split
      · split
        · rename_i hnone
          have hblocked := hready entry hentry hw
          rw [vipAllocBlocker_none hnone] at hblocked
          cases hblocked
        · rename_i b hb
          obtain ⟨hne, ref, href, rfl, hnum⟩ := vipAllocBlocker_some hb
          have hblocks := h.blocks hrefs href hnum hne
          exact ih _ hblocks.lt hblocks.unwritten (Or.inl ⟨entry, hentry, hw, hblocks⟩)
      · rename_i hseen
        exact hfrom.resolve_right fun hno => hseen ⟨hentry, hno.2⟩

theorem VipAllocOrdering.Paying.commit (hpay : st.Paying entries refs claim) {entry : Nat}
    (hw : st.written entry = false) : (st.commit entry).Paying entries refs claim := by
  refine ⟨fun i hi => ?_, fun i hi hown hmoved => ?_⟩
  · by_cases heq : i = entry
    · simp [VipAllocOrdering.commit, heq] at hi
    · exact hpay.kept i (by simpa [VipAllocOrdering.commit, heq] using hi)
  · by_cases heq : i = entry
    · exact absurd (hpay.kept i (heq ▸ hw)) hmoved
    · exact hpay.moved i (by simpa [VipAllocOrdering.commit, heq] using hi) hown hmoved

section Rounds

variable (hbudget : VipAllocBudget entries refs count claim)

include hbudget

theorem VipAllocOrdering.Sound.stuck (h : st.Sound count refs)
    (hready : ∀ u < count, st.written u = false →
      vipAllocBlockReady st.refs (st.num u) u = false) {u : Nat} (hu : u < count)
    (hw : st.written u = false) : ∃ b, st.Blocks refs count b u := by
  cases hb : vipAllocBlocker st.refs (st.num u) u with
  | none =>
      have hblocked := hready u hu hw
      rw [vipAllocBlocker_none hb] at hblocked
      cases hblocked
  | some b =>
      obtain ⟨hne, ref, href, rfl, hnum⟩ := vipAllocBlocker_some hb
      exact ⟨ref.entry, h.blocks hbudget.refs_lt href hnum hne⟩

theorem vipAllocRelocate_some (h : st.Sound count refs) (hpay : st.Paying entries refs claim)
    (hready : ∀ u < count, st.written u = false →
      vipAllocBlockReady st.refs (st.num u) u = false) {first : Nat} (hfirst : first < count)
    (hw : st.written first = false) (entry : Nat) :
    ∃ num < maxVips, (∀ e, st.num e ≠ num) ∧ (∀ ref ∈ st.refs, ref.num ≠ num) ∧
      vipAllocRelocate st entry = some { st with
        used := Function.update (Function.update st.used (st.num entry) false) num true
        num := Function.update st.num entry num } := by
  obtain ⟨n, hn, hfree, hclear⟩ := h.exists_free hpay hbudget
    (fun u hu hwu => h.stuck hbudget hready hu hwu) hfirst hw
  unfold vipAllocRelocate
  split
  · rename_i hnofree
    have hcond := List.find?_eq_none.mp hnofree n (List.mem_range.mpr hn)
    have hblock : vipAllocBlockReady st.refs n vipAllocNumUnset = true :=
      vipAllocBlockReady_iff.mpr fun ref href hnum => absurd hnum (hclear ref href)
    simp [hfree, hblock] at hcond
  · rename_i num hfind
    have hlt : num < maxVips := List.mem_range.mp (List.mem_of_find?_eq_some hfind)
    have hcond := List.find?_some hfind
    simp only [Bool.and_eq_true, Bool.not_eq_true'] at hcond
    refine ⟨num, hlt, ?_, ?_, rfl⟩
    · intro e he
      have hused := (h.claim.used_iff num (ne_unset_of_lt hlt)).mpr ⟨e, he⟩
      simp [hcond.1] at hused
    · intro ref href hnum
      have hunset := vipAllocBlockReady_iff.mp hcond.2 ref href hnum
      have hentry := h.refs_entry_lt hbudget.refs_lt href
      have hmax : count ≤ maxVips := hbudget.count_le
      have hbig : ¬vipAllocNumUnset < maxVips := unset_not_lt_maxVips
      omega

theorem vipAllocNext_some (h : st.Sound count refs) (hpay : st.Paying entries refs claim)
    (hmore : ∃ u < count, st.written u = false) :
    ∃ entry st', vipAllocNext st count = some (entry, st') ∧
      (st'.commit entry).Paying entries refs claim := by
  unfold vipAllocNext
  split
  · rename_i entry hfind
    have hcond := List.find?_some hfind
    simp only [Bool.and_eq_true, Bool.not_eq_true'] at hcond
    exact ⟨entry, st, rfl, hpay.commit hcond.1⟩
  · rename_i hnone
    have hready : ∀ u < count, st.written u = false →
        vipAllocBlockReady st.refs (st.num u) u = false := by
      intro u hu hw
      have hcond := List.find?_eq_none.mp hnone u (List.mem_range.mpr hu)
      simpa [hw] using hcond
    obtain ⟨u, hu, hwu⟩ := hmore
    split
    · rename_i hall
      have hcond := List.find?_eq_none.mp hall u (List.mem_range.mpr hu)
      simp [hwu] at hcond
    · rename_i first hfirst
      have hfirstLt : first < count := List.mem_range.mp (List.mem_of_find?_eq_some hfirst)
      have hfirstW : st.written first = false := by simpa using List.find?_some hfirst
      obtain ⟨y, hy, hwy, hblocks⟩ := h.walk_blocks hbudget.refs_lt hready count (fun _ => false)
        hfirstLt hfirstW (Or.inr ⟨by omega, rfl⟩)
      generalize vipAllocWalk st count count (fun _ => false) first = entry at hblocks
      obtain ⟨num, -, -, -, hmoved⟩ := vipAllocRelocate_some hbudget h hpay hready hfirstLt
        hfirstW entry
      refine ⟨entry, _, Option.map_eq_some_iff.mpr ⟨_, hmoved, rfl⟩, ?_, ?_⟩
      · intro i hi
        by_cases heq : i = entry
        · simp [VipAllocOrdering.commit, heq] at hi
        · have hwi : st.written i = false := by
            simpa [VipAllocOrdering.commit, heq] using hi
          simpa [VipAllocOrdering.commit, heq] using hpay.kept i hwi
      · intro i hi hown hmoved
        by_cases heq : i = entry
        · -- the entry that moves points at its own block and at the one it blocks
          subst heq
          have hpoints := hblocks.points
          rw [hpay.kept y hwy] at hpoints
          have hne : claim i ≠ claim y := fun hclaim =>
            hblocks.ne (hbudget.inj i y hblocks.lt hy hclaim)
          have hpair : ({claim i, claim y} : Finset Nat) ⊆ vipAllocOwn refs i := by
            intro m hm
            rcases Finset.mem_insert.mp hm with rfl | hm
            · exact hown
            · rwa [Finset.mem_singleton.mp hm]
          have htwo := Finset.card_le_card hpair
          rw [Finset.card_pair hne] at htwo
          exact htwo.trans (hbudget.card i hblocks.lt)
        · refine hpay.moved i ?_ hown ?_
          · simpa [VipAllocOrdering.commit, heq] using hi
          · simpa [VipAllocOrdering.commit, heq] using hmoved

theorem vipAllocOrder_some {remaining : Nat} (h : st.Sound count refs)
    (hpay : st.Paying entries refs claim) (hlen : st.writeOrder.length + remaining = count) :
    ∃ st', vipAllocOrder count remaining st = some st' := by
  induction remaining generalizing st with
  | zero => exact ⟨st, rfl⟩
  | succ remaining ih =>
      have hmore : ∃ u < count, st.written u = false := by
        by_contra hall
        push Not at hall
        have hsub : List.range count ⊆ st.writeOrder := by
          intro u hu
          have hw := hall u (List.mem_range.mp hu)
          exact (h.written_iff u).mp (by simpa using hw)
        have hle := (List.subperm_of_subset List.nodup_range hsub).length_le
        rw [List.length_range] at hle
        omega
      obtain ⟨entry, mid, hnext, hpay'⟩ := vipAllocNext_some hbudget h hpay hmore
      obtain ⟨hsound, horder⟩ := h.next hbudget.count_le hbudget.refs_lt hnext
      obtain ⟨st', hst'⟩ := ih hsound hpay' (by rw [horder, List.length_append]; simp; omega)
      exact ⟨st', by simpa only [vipAllocOrder, hnext] using hst'⟩

theorem vipAllocOrder_paying {rounds : Nat} {st' : VipAllocOrdering} (h : st.Sound count refs)
    (hpay : st.Paying entries refs claim) (hrun : vipAllocOrder count rounds st = some st') :
    st'.Paying entries refs claim := by
  induction rounds generalizing st with
  | zero =>
      cases hrun
      exact hpay
  | succ rounds ih =>
      simp only [vipAllocOrder] at hrun
      split at hrun
      · contradiction
      · rename_i entry mid hnext
        obtain ⟨other, mid', hnext', hpay'⟩ := vipAllocNext_some hbudget h hpay
          (vipAllocNext_unwritten hnext)
        cases hnext.symm.trans hnext'
        exact ih (h.next hbudget.count_le hbudget.refs_lt hnext).1 hpay' hrun

end Rounds

end Ordering

/-! ## The allocator -/

theorem sum_vipAllocKeys (entries : List (List VipKey)) :
    ∑ i ∈ Finset.range entries.length, vipAllocKeys entries i = entries.flatten.length := by
  induction entries with
  | nil => rfl
  | cons keys entries ih =>
      rw [List.length_cons, Finset.sum_range_succ', List.flatten_cons, List.length_append, ← ih,
        Nat.add_comm]
      rfl

theorem vipAllocKeyCountOk_of_length {entries : List (List VipKey)} {keyCount : Nat}
    (hne : ∀ keys ∈ entries, keys ≠ [])
    (hlen : keyCount + entries.flatten.length ≤ maxVips) :
    vipAllocKeyCountOk keyCount entries = true := by
  induction entries generalizing keyCount with
  | nil => rfl
  | cons keys entries ih =>
      have hpos := List.length_pos_iff.mpr (hne keys (by simp))
      rw [List.flatten_cons, List.length_append] at hlen
      rw [vipAllocKeyCountOk, if_neg (by omega)]
      exact ih (fun k hk => hne k (by simp [hk])) (by omega)

theorem VipAllocFair.budget {entries : List (List VipKey)} {baseline : List VipAllocBaseline}
    (hfair : VipAllocFair entries baseline) {claim : VipAllocClaim}
    (hclaim : vipAllocClaim entries baseline = some claim) :
    VipAllocBudget entries (vipAllocRefs entries baseline) entries.length claim.num := by
  obtain ⟨claim', hclaim', hkeeps⟩ := vipAllocClaim_keeps hfair
  cases hclaim.symm.trans hclaim'
  obtain ⟨hsound, hset⟩ := vipAllocClaim_sound hfair.num_lt hclaim
  have hrefs : ∀ ref ∈ vipAllocRefs entries baseline, ref.entry < entries.length := by
    intro ref href
    obtain ⟨b, -, howner, -⟩ := mem_vipAllocRefs.mp href
    exact (vipAllocOwner_some howner).1
  have hkeys : ∀ i < entries.length, ∃ keys, entries[i]? = some keys ∧
      vipAllocKeys entries i = keys.length ∧ keys ≠ [] := by
    intro i hi
    refine ⟨entries[i], by simp, by simp [vipAllocKeys, hi], ?_⟩
    exact hfair.nonempty _ (List.getElem_mem hi)
  refine ⟨hrefs, ?_, fun i j hi _ h => hsound.inj i j (hset i hi) h, ?_, ?_, ?_⟩
  · intro i hi
    refine (hkeeps i hi).imp id fun hothers n hn => ?_
    obtain ⟨j, hj, hown⟩ := hothers n hn
    exact ⟨j, hrefs _ (mem_vipAllocOwn.mp hown), hj, hown⟩
  · intro i hi
    obtain ⟨keys, -, hlen, hne⟩ := hkeys i hi
    rw [hlen]
    exact List.length_pos_iff.mpr hne
  · intro i hi
    obtain ⟨keys, hentry, hlen, -⟩ := hkeys i hi
    rw [hlen]
    exact hfair.card i keys hentry
  · rw [sum_vipAllocKeys]
    exact hfair.count

theorem VipAllocOrdering.start_paying {entries : List (List VipKey)}
    {baseline : List VipAllocBaseline} {claim : VipAllocClaim} :
    (VipAllocOrdering.start entries baseline claim).Paying entries
      (vipAllocRefs entries baseline) claim.num :=
  ⟨fun _ _ => rfl, fun i hi => by simp [VipAllocOrdering.start] at hi⟩

theorem vipAlloc_complete {entries : List (List VipKey)} {baseline : List VipAllocBaseline}
    (hfair : VipAllocFair entries baseline) : (vipAlloc entries baseline).ok = true := by
  have hcount := hfair.entries_length
  have hrows := hfair.rows
  obtain ⟨claim, hclaim, -⟩ := vipAllocClaim_keeps hfair
  obtain ⟨hsound, hset⟩ := vipAllocClaim_sound hfair.num_lt hclaim
  obtain ⟨st, hst⟩ := vipAllocOrder_some (hfair.budget hclaim)
    (VipAllocOrdering.start_sound hsound hset) VipAllocOrdering.start_paying (Nat.zero_add _)
  have hnums : (baseline.any fun b => decide (b.vipNum ≥ maxVips)) = false := by
    rw [List.any_eq_false]
    intro b hb
    simpa using hfair.num_lt b hb
  rw [vipAlloc, if_neg (by omega),
    vipAllocKeyCountOk_of_length hfair.nonempty (by simpa using hfair.count), hnums, hclaim]
  unfold VipAllocOrdering.start at hst
  dsimp only
  rw [hst]
  rfl

end Marlin
