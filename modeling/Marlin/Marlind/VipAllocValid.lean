import Marlin.Marlind.VipAllocComplete

/-!
# Valid inputs of the allocator

An input is valid when no two keys and no two rows are equal under `vip_alloc_key_eq`, and all
of it fits `MAX_VIPS`.  Nothing else is asked of a baseline: its rows may name any blocks, one
block several times included.
-/

namespace Marlin

structure VipAllocValid (entries : List (List VipKey)) (baseline : List VipAllocBaseline) :
    Prop where
  nonempty : ∀ keys ∈ entries, keys ≠ []
  keys_distinct : entries.flatten.Pairwise fun a b => vipAllocKeyEq a b = false
  count : entries.flatten.length ≤ maxVips
  rows : baseline.length ≤ maxVips
  rows_distinct : baseline.Pairwise fun a b => vipAllocKeyEq a.key b.key = false
  num_lt : ∀ b ∈ baseline, b.vipNum < maxVips

namespace VipAllocValid

variable {entries : List (List VipKey)} {baseline : List VipAllocBaseline}

theorem owner (h : VipAllocValid entries baseline) {i : Nat} {keys : List VipKey}
    (hi : entries[i]? = some keys) {k key : VipKey} (hk : k ∈ keys)
    (heq : vipAllocKeyEq k key = true) : vipAllocOwner entries key = some i :=
  vipAllocOwner_eq h.keys_distinct hi hk heq

theorem card (h : VipAllocValid entries baseline) {i : Nat} {keys : List VipKey}
    (hi : entries[i]? = some keys) :
    (vipAllocOwn (vipAllocRefs entries baseline) i).card ≤ keys.length := by
  let rows := baseline.filter fun b => vipAllocOwner entries b.key == some i
  let at' : VipAllocBaseline → Nat := fun b => keys.findIdx fun k => vipAllocKeyEq k b.key
  have hsub : vipAllocOwn (vipAllocRefs entries baseline) i ⊆
      (rows.map VipAllocBaseline.vipNum).toFinset := by
    intro n hn
    obtain ⟨b, hb, howner, rfl⟩ := mem_vipAllocRefs.mp (mem_vipAllocOwn.mp hn)
    exact List.mem_toFinset.mpr (List.mem_map.mpr
      ⟨b, List.mem_filter.mpr ⟨hb, by simpa using howner⟩, rfl⟩)
  have hheld : ∀ b ∈ rows, ∃ hlt : at' b < keys.length, vipAllocKeyEq keys[at' b] b.key = true := by
    intro b hb
    obtain ⟨hlt, k, hk, heq⟩ := vipAllocOwner_some (by simpa using (List.mem_filter.mp hb).2)
    rw [(List.getElem?_eq_some_iff.mp hi).2] at hk
    have hfound : at' b < keys.length := List.findIdx_lt_length_of_exists ⟨k, hk, heq⟩
    exact ⟨hfound, List.findIdx_getElem (w := hfound)⟩
  have hrange : rows.map at' ⊆ List.range keys.length := by
    intro n hn
    obtain ⟨b, hb, rfl⟩ := List.mem_map.mp hn
    exact List.mem_range.mpr (hheld b hb).1
  have hnodup : (rows.map at').Nodup := by
    have hrows := h.rows_distinct.sublist (List.filter_sublist (p := fun b =>
      vipAllocOwner entries b.key == some i))
    apply List.pairwise_map.mpr
    apply hrows.imp_of_mem
    intro a b ha hb hne hsame
    obtain ⟨hlta, heqa⟩ := hheld a ha
    obtain ⟨hltb, heqb⟩ := hheld b hb
    have hkey : keys[at' a] = keys[at' b] := by simp only [hsame]
    rw [hkey] at heqa
    rw [vipAllocKeyEq, vipKeyEq_trans (vipKeyEq_symm heqa) heqb] at hne
    cases hne
  calc (vipAllocOwn (vipAllocRefs entries baseline) i).card
      ≤ (rows.map VipAllocBaseline.vipNum).toFinset.card := Finset.card_le_card hsub
    _ ≤ (rows.map VipAllocBaseline.vipNum).length := List.toFinset_card_le _
    _ = (rows.map at').length := by simp
    _ ≤ (List.range keys.length).length := (List.subperm_of_subset hnodup hrange).length_le
    _ = keys.length := List.length_range

theorem fair (h : VipAllocValid entries baseline) : VipAllocFair entries baseline where
  nonempty := h.nonempty
  count := h.count
  rows := h.rows
  num_lt := h.num_lt
  owner _ _ hi _ hk _ _ heq := h.owner hi hk heq
  card _ _ hi := h.card hi

end VipAllocValid

/-! ## The states of the ordering loop -/

def VipAllocReaches (entries : List (List VipKey)) (baseline : List VipAllocBaseline)
    (claim : VipAllocClaim) (st : VipAllocOrdering) : Prop :=
  vipAllocClaim entries baseline = some claim ∧
    ∃ rounds, vipAllocOrder entries.length rounds (.start entries baseline claim) = some st

/-- No unwritten entry may be written in place: the loop looks for a cycle. -/
def VipAllocOrdering.Stuck (st : VipAllocOrdering) (count : Nat) : Prop :=
  ∀ u < count, st.written u = false → vipAllocBlockReady st.refs (st.num u) u = false

section Reached

variable {entries : List (List VipKey)} {baseline : List VipAllocBaseline}
  {claim : VipAllocClaim} {st : VipAllocOrdering}

theorem vipAllocRefs_lt : ∀ ref ∈ vipAllocRefs entries baseline, ref.entry < entries.length := by
  intro ref href
  obtain ⟨b, -, howner, -⟩ := mem_vipAllocRefs.mp href
  exact (vipAllocOwner_some howner).1

theorem VipAllocReaches.sound (h : VipAllocReaches entries baseline claim st)
    (hcount : entries.length ≤ maxVips) (hnums : ∀ b ∈ baseline, b.vipNum < maxVips) :
    st.Sound entries.length (vipAllocRefs entries baseline) := by
  obtain ⟨hclaim, rounds, hrun⟩ := h
  obtain ⟨hsound, hset⟩ := vipAllocClaim_sound hnums hclaim
  exact (vipAllocOrder_sound (VipAllocOrdering.start_sound hsound hset) hcount vipAllocRefs_lt
    hrun).1

theorem VipAllocReaches.paying (h : VipAllocReaches entries baseline claim st)
    (hfair : VipAllocFair entries baseline) :
    st.Paying entries (vipAllocRefs entries baseline) claim.num := by
  obtain ⟨hclaim, rounds, hrun⟩ := h
  obtain ⟨hsound, hset⟩ := vipAllocClaim_sound hfair.num_lt hclaim
  exact vipAllocOrder_paying (hfair.budget hclaim) (VipAllocOrdering.start_sound hsound hset)
    VipAllocOrdering.start_paying hrun

end Reached

/-- A valid input is always allocated: wherever the ordering loop is stuck, the entry that its
walk ends on can be moved to a block that is neither assigned nor referenced. -/
theorem vipAlloc_valid (entries : List (List VipKey)) (baseline : List VipAllocBaseline)
    (h : VipAllocValid entries baseline) :
    (vipAlloc entries baseline).ok = true ∧
      ∀ claim st, VipAllocReaches entries baseline claim st → st.Stuck entries.length →
        ∀ first < entries.length, st.written first = false →
          let entry := vipAllocWalk st entries.length entries.length (fun _ => false) first
          ∃ num < maxVips, (∀ e, st.num e ≠ num) ∧ (∀ ref ∈ st.refs, ref.num ≠ num) ∧
            ∃ moved, vipAllocRelocate st entry = some moved ∧ moved.num entry = num := by
  refine ⟨vipAlloc_complete h.fair, ?_⟩
  intro claim st hreach hstuck first hfirst hw entry
  have hbudget := h.fair.budget hreach.1
  obtain ⟨num, hlt, hassigned, hreferenced, hmoved⟩ := vipAllocRelocate_some hbudget
    (hreach.sound hbudget.count_le h.num_lt) (hreach.paying h.fair) hstuck hfirst hw entry
  exact ⟨num, hlt, hassigned, hreferenced, _, hmoved, Function.update_self _ _ _⟩

namespace Sample

def vipKey (n : Nat) : VipKey := ⟨⟨Be32.ofNat n, 0, 0, 0⟩, Be16.ofNat 80, ipprotoTcp, afInet⟩

def crossedEntries : List (List VipKey) := [[vipKey 1, vipKey 2], [vipKey 3, vipKey 4]]

def crossedBaseline : List VipAllocBaseline :=
  [⟨vipKey 1, 0⟩, ⟨vipKey 2, 1⟩, ⟨vipKey 3, 1⟩, ⟨vipKey 4, 0⟩]

end Sample

instance (entries : List (List VipKey)) (baseline : List VipAllocBaseline) :
    Decidable (VipAllocValid entries baseline) :=
  decidable_of_iff ((∀ keys ∈ entries, keys ≠ []) ∧
      (entries.flatten.Pairwise fun a b => vipAllocKeyEq a b = false) ∧
      entries.flatten.length ≤ maxVips ∧ baseline.length ≤ maxVips ∧
      (baseline.Pairwise fun a b => vipAllocKeyEq a.key b.key = false) ∧
      ∀ b ∈ baseline, b.vipNum < maxVips)
    ⟨fun ⟨h1, h2, h3, h4, h5, h6⟩ => ⟨h1, h2, h3, h4, h5, h6⟩,
      fun h => ⟨h.1, h.2, h.3, h.4, h.5, h.6⟩⟩

theorem vipAlloc_valid_crossed :
    (vipAlloc Sample.crossedEntries Sample.crossedBaseline).ok = true :=
  (vipAlloc_valid _ _ (by decide)).1

/-! ## The shape of a plan -/

structure VipAllocResult.Shaped (r : VipAllocResult) (count : Nat)
    (baseline : List VipAllocBaseline) : Prop where
  num_lt : ∀ e < count, r.num e < maxVips
  num_inj : ∀ e < count, ∀ f < count, r.num e = r.num f → e = f
  order : r.plan.writeOrder.Perm (List.range count)
  release_nodup : r.plan.release.Nodup
  mem_release : ∀ n, n ∈ r.plan.release ↔
    (∃ b ∈ baseline, b.vipNum = n) ∧ ∀ e < count, r.num e ≠ n

theorem vipAlloc_shaped {entries : List (List VipKey)} {baseline : List VipAllocBaseline}
    (h : (vipAlloc entries baseline).ok = true) :
    (vipAlloc entries baseline).Shaped entries.length baseline := by
  have hsafe := vipAlloc_safe h
  obtain ⟨hcount, hnums, claim, st, hclaim, hrun, heq⟩ := vipAlloc_ok h
  have hsound := VipAllocReaches.sound ⟨hclaim, _, hrun⟩ hcount hnums
  refine ⟨hsafe.num_lt, fun e he f hf => hsafe.num_inj e f he hf, ?_, ?_, ?_⟩
  · rw [List.perm_ext_iff_of_nodup hsafe.order_nodup List.nodup_range]
    intro e
    rw [hsafe.mem_order, List.mem_range]
  · rw [heq]
    exact List.nodup_range.filter _
  · intro n
    constructor
    · intro hn
      refine ⟨?_, hsafe.release_free n hn⟩
      rw [heq] at hn
      have hrow := (List.mem_filter.mp hn).2
      simp only [Bool.and_eq_true, List.any_eq_true, beq_iff_eq] at hrow
      exact hrow.1
    · rintro ⟨⟨b, hb, rfl⟩, hfree⟩
      have hlt := hnums b hb
      rw [heq] at hfree ⊢
      refine List.mem_filter.mpr ⟨List.mem_range.mpr hlt, ?_⟩
      simp only [Bool.and_eq_true, List.any_eq_true, beq_iff_eq, Bool.not_eq_true']
      refine ⟨⟨b, hb, rfl⟩, ?_⟩
      rw [Bool.eq_false_iff, ne_eq, hsound.claim.used_iff _ (ne_unset_of_lt hlt)]
      rintro ⟨e, he⟩
      exact hfree e (hsound.claim.bound e (he ▸ ne_unset_of_lt hlt)).1 he

/-- A plan assigns distinct blocks, writes each entry once and releases exactly the baseline's
unassigned blocks; on the way every walk ends on an unwritten entry.  A refusal leaves
nothing assigned and nothing planned. -/
theorem vipAlloc_shape (entries : List (List VipKey)) (baseline : List VipAllocBaseline) :
    ((vipAlloc entries baseline).ok = true →
      (vipAlloc entries baseline).Shaped entries.length baseline ∧
      ∀ claim st, VipAllocReaches entries baseline claim st →
        ∀ first < entries.length, st.written first = false →
          let entry := vipAllocWalk st entries.length entries.length (fun _ => false) first
          entry < entries.length ∧ st.written entry = false) ∧
      ((vipAlloc entries baseline).ok = false →
        (∀ e, (vipAlloc entries baseline).num e = vipAllocNumUnset) ∧
        (vipAlloc entries baseline).plan = ⟨[], []⟩) := by
  constructor
  · intro hok
    obtain ⟨hcount, hnums, -⟩ := vipAlloc_ok hok
    refine ⟨vipAlloc_shaped hok, ?_⟩
    intro claim st hreach first hfirst hw
    exact (hreach.sound hcount hnums).walk vipAllocRefs_lt _ _ hfirst hw
  · intro hrefused
    have hfailed : vipAlloc entries baseline = .failed := by
      unfold vipAlloc at hrefused ⊢
      grind
    rw [hfailed]
    exact ⟨fun _ => rfl, rfl⟩

theorem vipAlloc_shape_crossed :
    (vipAlloc Sample.crossedEntries Sample.crossedBaseline).plan.writeOrder.Perm [0, 1] ∧
      (vipAlloc [[]] []).plan = ⟨[], []⟩ := by
  have hok : (vipAlloc Sample.crossedEntries Sample.crossedBaseline).ok = true := by
    decide +kernel
  have hrefused : (vipAlloc [[]] []).ok = false := by decide
  exact ⟨((vipAlloc_shape _ _).1 hok).1.order, ((vipAlloc_shape _ _).2 hrefused).2⟩

end Marlin
