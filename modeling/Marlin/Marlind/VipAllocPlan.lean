import Mathlib.Data.Finset.Card
import Mathlib.Data.List.Nodup
import Marlin.Marlind.VipAlloc

/-!
# What a plan of the allocator guarantees

An allocation is followed entry by entry.  `VipAllocPlan.Safe` says what the
reconciler relies on while it does so: distinct entries have distinct blocks, the
write order visits every entry once, an entry is written only when no unwritten
entry still has an address in its block, and a released block belongs to nobody.
-/

namespace Marlin

/-- The guarantees of a plan for `count` entries with assignment `num`. -/
structure VipAllocPlan.Safe (plan : VipAllocPlan) (count : Nat)
    (refs : List VipAllocReference) (num : Nat → Nat) : Prop where
  num_lt : ∀ e, e < count → num e < maxVips
  num_inj : ∀ e f, e < count → f < count → num e = num f → e = f
  order_nodup : plan.writeOrder.Nodup
  mem_order : ∀ e, e ∈ plan.writeOrder ↔ e < count
  order_safe : ∀ done e rest, plan.writeOrder = done ++ e :: rest →
    ∀ ref ∈ refs, ref.entry ∉ done → ref.entry ≠ e → ref.num ≠ num e
  release_free : ∀ n ∈ plan.release, ∀ e, e < count → num e ≠ n

/-! ## Claims -/

structure VipAllocClaim.Sound (st : VipAllocClaim) (count : Nat) : Prop where
  bound : ∀ e, st.num e ≠ vipAllocNumUnset → e < count ∧ st.num e < maxVips
  inj : ∀ e f, st.num e ≠ vipAllocNumUnset → st.num e = st.num f → e = f
  used_iff : ∀ n, n ≠ vipAllocNumUnset → (st.used n = true ↔ ∃ e, st.num e = n)

theorem unset_not_lt_maxVips : ¬vipAllocNumUnset < maxVips := by decide

theorem ne_unset_of_lt {n : Nat} (h : n < maxVips) : n ≠ vipAllocNumUnset := by
  rintro rfl
  exact unset_not_lt_maxVips h

namespace VipAllocClaim.Sound

variable {st : VipAllocClaim} {count entry n : Nat}

theorem initial (count : Nat) :
    VipAllocClaim.Sound ⟨fun _ => false, fun _ => vipAllocNumUnset⟩ count where
  bound e he := absurd rfl he
  inj e f he := absurd rfl he
  used_iff n hn := by simp [Ne.symm hn]

theorem assign (h : st.Sound count) (hentry : entry < count)
    (hunset : st.num entry = vipAllocNumUnset) (hn : n < maxVips)
    (hfree : st.used n = false) : (st.assign entry n).Sound count := by
  have hnum : ∀ e, st.num e ≠ n := by
    intro e he
    have := (h.used_iff n (ne_unset_of_lt hn)).mpr ⟨e, he⟩
    simp [hfree] at this
  refine ⟨?_, ?_, ?_⟩
  · intro e he
    by_cases heq : e = entry
    · subst heq
      simpa [VipAllocClaim.assign] using And.intro hentry hn
    · simp only [VipAllocClaim.assign, Function.update_of_ne heq] at he ⊢
      exact h.bound e he
  · intro e f he hef
    by_cases heq : e = entry <;> by_cases hfq : f = entry
    · rw [heq, hfq]
    · subst heq
      simp only [VipAllocClaim.assign, Function.update_self,
        Function.update_of_ne hfq] at hef
      exact absurd hef.symm (hnum f)
    · subst hfq
      simp only [VipAllocClaim.assign, Function.update_self,
        Function.update_of_ne heq] at hef
      exact absurd hef (hnum e)
    · simp only [VipAllocClaim.assign, Function.update_of_ne heq,
        Function.update_of_ne hfq] at he hef
      exact h.inj e f he hef
  · intro m hm
    simp only [VipAllocClaim.assign]
    by_cases hmn : m = n
    · subst hmn
      simp only [Function.update_self, true_iff]
      exact ⟨entry, by simp⟩
    · rw [Function.update_of_ne hmn, h.used_iff m hm]
      constructor
      · rintro ⟨e, he⟩
        have heq : e ≠ entry := by
          rintro rfl
          exact hm (he.symm.trans hunset)
        exact ⟨e, by rw [Function.update_of_ne heq, he]⟩
      · rintro ⟨e, he⟩
        by_cases heq : e = entry
        · subst heq
          rw [Function.update_self] at he
          exact absurd he.symm hmn
        · rw [Function.update_of_ne heq] at he
          exact ⟨e, he⟩

theorem unassign (h : st.Sound count) (hset : st.num entry ≠ vipAllocNumUnset) :
    VipAllocClaim.Sound ⟨Function.update st.used (st.num entry) false,
      Function.update st.num entry vipAllocNumUnset⟩ count := by
  refine ⟨?_, ?_, ?_⟩
  · intro e he
    by_cases heq : e = entry
    · simp [heq] at he
    · simp only [Function.update_of_ne heq] at he ⊢
      exact h.bound e he
  · intro e f he hef
    by_cases heq : e = entry
    · simp [heq] at he
    · by_cases hfq : f = entry
      · subst hfq
        simp only [Function.update_self] at hef
        exact absurd hef he
      · simp only [Function.update_of_ne heq, Function.update_of_ne hfq] at he hef
        exact h.inj e f he hef
  · intro m hm
    by_cases hmn : m = st.num entry
    · subst hmn
      simp only [Function.update_self, Bool.false_eq_true, false_iff, not_exists]
      intro e he
      by_cases heq : e = entry
      · subst heq
        simp only [Function.update_self] at he
        exact hm he.symm
      · rw [Function.update_of_ne heq] at he
        exact heq (h.inj e entry (he ▸ hm) he)
    · simp only [Function.update_of_ne hmn]
      rw [h.used_iff m hm]
      constructor
      · rintro ⟨e, rfl⟩
        have heq : e ≠ entry := fun heq => hmn (heq ▸ rfl)
        exact ⟨e, Function.update_of_ne heq _ _⟩
      · rintro ⟨e, he⟩
        by_cases heq : e = entry
        · subst heq
          rw [Function.update_self] at he
          exact absurd he.symm hm
        · rw [Function.update_of_ne heq] at he
          exact ⟨e, he⟩

end VipAllocClaim.Sound

theorem vipAllocMatch_some {keys : List VipKey} {baseline : List VipAllocBaseline}
    {used : Nat → Bool} {n : Nat} (h : vipAllocMatch keys baseline used = some n) :
    used n = false ∧ ∃ b ∈ baseline, b.vipNum = n := by
  obtain ⟨k, -, hk⟩ := List.exists_of_findSome?_eq_some h
  obtain ⟨b, hb, rfl⟩ := Option.map_eq_some_iff.mp hk
  have hcond := List.find?_some hb
  simp only [Bool.and_eq_true, Bool.not_eq_true'] at hcond
  exact ⟨hcond.1, b, List.mem_of_find?_eq_some hb, rfl⟩

theorem vipAllocRetain_sound {baseline : List VipAllocBaseline} {count : Nat}
    (hbase : ∀ b ∈ baseline, b.vipNum < maxVips) (todo : List (Nat × List VipKey))
    (hlt : ∀ p ∈ todo, p.1 < count) (hnodup : (todo.map Prod.fst).Nodup)
    {st : VipAllocClaim} (h : st.Sound count)
    (hunset : ∀ p ∈ todo, st.num p.1 = vipAllocNumUnset) :
    (todo.foldl (vipAllocRetain baseline) st).Sound count := by
  induction todo generalizing st with
  | nil => exact h
  | cons p todo ih =>
      simp only [List.map_cons, List.nodup_cons] at hnodup
      have hother : ∀ q ∈ todo, q.1 ≠ p.1 := by
        intro q hq heq
        exact hnodup.1 (heq ▸ List.mem_map_of_mem hq)
      have hp := hunset p (by simp)
      rw [List.foldl_cons]
      cases hmatch : vipAllocMatch p.2 baseline st.used with
      | none =>
          have hsame : vipAllocRetain baseline st p = st := by
            simp only [vipAllocRetain, hmatch]
            rw [← hp, Function.update_eq_self]
          rw [hsame]
          exact ih (fun q hq => hlt q (by simp [hq])) hnodup.2 h
            (fun q hq => hunset q (by simp [hq]))
      | some n =>
          obtain ⟨hfree, b, hb, rfl⟩ := vipAllocMatch_some hmatch
          have hstep : vipAllocRetain baseline st p = st.assign p.1 b.vipNum := by
            simp only [vipAllocRetain, hmatch]
          rw [hstep]
          refine ih (fun q hq => hlt q (by simp [hq])) hnodup.2
            (h.assign (hlt p (by simp)) hp (hbase b hb) hfree) ?_
          intro q hq
          simp only [VipAllocClaim.assign, Function.update_of_ne (hother q hq)]
          exact hunset q (by simp [hq])

theorem vipAllocFresh_sound {st st' : VipAllocClaim} {count entry : Nat}
    (h : st.Sound count) (hentry : entry < count)
    (hstep : vipAllocFresh st entry = some st') :
    st'.Sound count ∧ st'.num entry ≠ vipAllocNumUnset ∧
      ∀ e, st.num e ≠ vipAllocNumUnset → st'.num e = st.num e := by
  unfold vipAllocFresh at hstep
  split at hstep
  · rename_i hset
    cases hstep
    exact ⟨h, hset, fun _ _ => rfl⟩
  · rename_i hset
    have hunset : st.num entry = vipAllocNumUnset := not_not.mp hset
    split at hstep
    · contradiction
    · rename_i n hfind
      cases hstep
      have hn : n < maxVips := List.mem_range.mp (List.mem_of_find?_eq_some hfind)
      have hfree : st.used n = false := by simpa using List.find?_some hfind
      refine ⟨h.assign hentry hunset hn hfree, ?_, ?_⟩
      · simpa [VipAllocClaim.assign] using ne_unset_of_lt hn
      · intro e he
        have hne : e ≠ entry := fun heq => he (heq ▸ hunset)
        simp [VipAllocClaim.assign, hne]

theorem vipAllocFresh_foldlM {count : Nat} (todo : List Nat)
    (hlt : ∀ e ∈ todo, e < count) {st st' : VipAllocClaim} (h : st.Sound count)
    (hfold : todo.foldlM vipAllocFresh st = some st') :
    st'.Sound count ∧ (∀ e ∈ todo, st'.num e ≠ vipAllocNumUnset) ∧
      ∀ e, st.num e ≠ vipAllocNumUnset → st'.num e = st.num e := by
  induction todo generalizing st with
  | nil =>
      cases hfold
      exact ⟨h, by simp, fun _ _ => rfl⟩
  | cons entry todo ih =>
      rw [List.foldlM_cons] at hfold
      obtain ⟨mid, hmid, hrest⟩ := Option.bind_eq_some_iff.mp hfold
      obtain ⟨hsound, hset, hkeep⟩ := vipAllocFresh_sound h (hlt entry (by simp)) hmid
      obtain ⟨hsound', hset', hkeep'⟩ :=
        ih (fun e he => hlt e (by simp [he])) hsound hrest
      refine ⟨hsound', ?_, ?_⟩
      · intro e he
        rcases List.mem_cons.mp he with rfl | he
        · rw [hkeep' e hset]
          exact hset
        · exact hset' e he
      · intro e he
        have hmidKeep := hkeep e he
        rw [hkeep' e (hmidKeep ▸ he), hmidKeep]

theorem vipAllocClaim_sound {entries : List (List VipKey)}
    {baseline : List VipAllocBaseline} {st : VipAllocClaim}
    (hbase : ∀ b ∈ baseline, b.vipNum < maxVips)
    (h : vipAllocClaim entries baseline = some st) :
    st.Sound entries.length ∧ ∀ e, e < entries.length → st.num e ≠ vipAllocNumUnset := by
  have hfst : ((List.range entries.length).zip entries).map Prod.fst =
      List.range entries.length := by
    rw [List.map_fst_zip (by simp)]
  have hretained := vipAllocRetain_sound hbase
    ((List.range entries.length).zip entries)
    (fun p hp => List.mem_range.mp (List.of_mem_zip hp).1)
    (by rw [hfst]; exact List.nodup_range) (VipAllocClaim.Sound.initial entries.length)
    (fun _ _ => rfl)
  obtain ⟨hsound, hset, -⟩ := vipAllocFresh_foldlM (List.range entries.length)
    (fun e he => List.mem_range.mp he) hretained h
  exact ⟨hsound, fun e he => hset e (List.mem_range.mpr he)⟩

/-! ## Write orders -/

/-- What a kept address points at once the entries in `written` have been written. -/
def VipAllocReference.follow (written : Nat → Bool) (num : Nat → Nat)
    (ref : VipAllocReference) : VipAllocReference :=
  if written ref.entry = true then { ref with num := num ref.entry } else ref

/-- The invariant of the ordering loop; `refs` are the references it started with. -/
structure VipAllocOrdering.Sound (st : VipAllocOrdering) (count : Nat)
    (refs : List VipAllocReference) : Prop where
  claim : VipAllocClaim.Sound ⟨st.used, st.num⟩ count
  set : ∀ e, e < count → st.num e ≠ vipAllocNumUnset
  refs_eq : st.refs = refs.map (VipAllocReference.follow st.written st.num)
  written_iff : ∀ e, st.written e = true ↔ e ∈ st.writeOrder
  nodup : st.writeOrder.Nodup
  bound : ∀ e ∈ st.writeOrder, e < count
  safe : ∀ done e rest, st.writeOrder = done ++ e :: rest →
    ∀ ref ∈ refs, ref.entry ∉ done → ref.entry ≠ e → ref.num ≠ st.num e

theorem vipAllocBlockReady_iff {refs : List VipAllocReference} {num entry : Nat} :
    vipAllocBlockReady refs num entry = true ↔
      ∀ ref ∈ refs, ref.num = num → ref.entry = entry := by
  simp only [vipAllocBlockReady, List.all_eq_true, Bool.not_eq_true', Bool.and_eq_false_iff,
    beq_eq_false_iff_ne, bne_eq_false_iff_eq]
  constructor
  · intro h ref href hnum
    rcases h ref href with h | h
    · exact absurd hnum h
    · exact h
  · intro h ref href
    by_cases hnum : ref.num = num
    · exact Or.inr (h ref href hnum)
    · exact Or.inl hnum

theorem vipAllocBlocker_some {refs : List VipAllocReference} {num entry b : Nat}
    (h : vipAllocBlocker refs num entry = some b) :
    b ≠ entry ∧ ∃ ref ∈ refs, ref.entry = b ∧ ref.num = num := by
  obtain ⟨ref, href, rfl⟩ := Option.map_eq_some_iff.mp h
  have hcond := List.find?_some href
  simp only [Bool.and_eq_true, beq_iff_eq, bne_iff_ne, ne_eq] at hcond
  exact ⟨hcond.2, ref, List.mem_of_find?_eq_some href, rfl, hcond.1⟩

private theorem snoc_eq_append_cons {α : Type} {xs done rest : List α} {x e : α}
    (h : xs ++ [x] = done ++ e :: rest) :
    (done = xs ∧ e = x) ∨ ∃ rest', xs = done ++ e :: rest' := by
  rcases List.eq_nil_or_concat rest with rfl | ⟨rest', y, rfl⟩
  · obtain ⟨hxs, hx⟩ := List.append_inj' h rfl
    cases hx
    exact Or.inl ⟨hxs.symm, rfl⟩
  · rw [List.concat_eq_append, ← List.cons_append, ← List.append_assoc] at h
    obtain ⟨hxs, -⟩ := List.append_inj' h rfl
    exact Or.inr ⟨rest', hxs⟩

namespace VipAllocOrdering.Sound

variable {st : VipAllocOrdering} {count entry : Nat} {refs : List VipAllocReference}

theorem mem_refs_of_unwritten (h : st.Sound count refs) {ref : VipAllocReference}
    (href : ref ∈ refs) (hw : st.written ref.entry = false) : ref ∈ st.refs := by
  rw [h.refs_eq]
  exact List.mem_map.mpr ⟨ref, href, by simp [VipAllocReference.follow, hw]⟩

theorem refs_entry_lt (h : st.Sound count refs) (hrefs : ∀ ref ∈ refs, ref.entry < count)
    {ref : VipAllocReference} (href : ref ∈ st.refs) : ref.entry < count := by
  rw [h.refs_eq] at href
  obtain ⟨orig, horig, rfl⟩ := List.mem_map.mp href
  have hsame : (VipAllocReference.follow st.written st.num orig).entry = orig.entry := by
    unfold VipAllocReference.follow
    split <;> rfl
  rw [hsame]
  exact hrefs orig horig

theorem commit (h : st.Sound count refs) (hentry : entry < count)
    (hw : st.written entry = false)
    (hready : vipAllocBlockReady st.refs (st.num entry) entry = true) :
    (st.commit entry).Sound count refs := by
  have hnew : entry ∉ st.writeOrder := fun hmem => by
    simp [(h.written_iff entry).mpr hmem] at hw
  refine ⟨h.claim, h.set, ?_, ?_, ?_, ?_, ?_⟩
  · simp only [VipAllocOrdering.commit, h.refs_eq, List.map_map]
    refine List.map_congr_left fun ref _ => ?_
    simp only [Function.comp_apply, VipAllocReference.follow]
    by_cases heq : ref.entry = entry
    · simp [heq, hw]
    · by_cases hwr : st.written ref.entry = true <;> simp [hwr, heq]
  · intro e
    simp only [VipAllocOrdering.commit, List.mem_append, List.mem_singleton,
      ← h.written_iff e]
    by_cases heq : e = entry <;> simp [heq]
  · simp only [VipAllocOrdering.commit]
    exact List.nodup_append'.mpr ⟨h.nodup, by simp, by simpa using hnew⟩
  · intro e he
    simp only [VipAllocOrdering.commit, List.mem_append, List.mem_singleton] at he
    rcases he with he | rfl
    · exact h.bound e he
    · exact hentry
  · intro done e rest hsplit ref href hdone hne
    rcases snoc_eq_append_cons hsplit with ⟨rfl, rfl⟩ | ⟨rest', hxs⟩
    · -- the entry just written: nothing unwritten points at its block
      intro hnum
      have hwr : st.written ref.entry = false := by
        rw [Bool.eq_false_iff, ne_eq, h.written_iff]
        exact hdone
      exact hne (vipAllocBlockReady_iff.mp hready ref
        (h.mem_refs_of_unwritten href hwr) hnum)
    · exact h.safe done e rest' hxs ref href hdone hne

theorem relocate (h : st.Sound count refs) (hcount : count ≤ maxVips)
    (hrefs : ∀ ref ∈ refs, ref.entry < count) (hentry : entry < count)
    (hw : st.written entry = false) {st' : VipAllocOrdering}
    (hstep : vipAllocRelocate st entry = some st') :
    st'.Sound count refs ∧ st'.written entry = false ∧
      st'.writeOrder = st.writeOrder ∧
      vipAllocBlockReady st'.refs (st'.num entry) entry = true := by
  unfold vipAllocRelocate at hstep
  split at hstep
  · contradiction
  · rename_i n hfind
    cases hstep
    have hn : n < maxVips := List.mem_range.mp (List.mem_of_find?_eq_some hfind)
    have hcond := List.find?_some hfind
    simp only [Bool.and_eq_true, Bool.not_eq_true'] at hcond
    have hfree : Function.update st.used (st.num entry) false n = false := by
      by_cases heq : n = st.num entry <;> simp [heq, hcond.1]
    have hunwritten : ∀ e, st.written e = true → e ≠ entry := by
      rintro e he rfl
      simp [hw] at he
    have hclaim := (h.claim.unassign (h.set entry hentry)).assign hentry
      (Function.update_self _ _ _) hn hfree
    refine ⟨⟨?_, ?_, ?_, h.written_iff, h.nodup, h.bound, ?_⟩, hw, rfl, ?_⟩
    · simpa [VipAllocClaim.assign] using hclaim
    · intro e he
      by_cases heq : e = entry
      · simpa [heq] using ne_unset_of_lt hn
      · simpa [heq] using h.set e he
    · rw [h.refs_eq]
      refine List.map_congr_left fun ref _ => ?_
      by_cases hwr : st.written ref.entry = true
      · simp [VipAllocReference.follow, hwr, hunwritten _ hwr]
      · simp [VipAllocReference.follow, hwr]
    · intro done e rest hsplit ref href hdone hne
      have hmem : e ∈ st.writeOrder := by
        rw [show st.writeOrder = done ++ e :: rest from hsplit]
        simp
      have heq : e ≠ entry := hunwritten e ((h.written_iff e).mpr hmem)
      simp only [Function.update_of_ne heq]
      exact h.safe done e rest hsplit ref href hdone hne
    · rw [vipAllocBlockReady_iff]
      intro ref href hnum
      simp only [Function.update_self] at hnum
      have hunset := vipAllocBlockReady_iff.mp hcond.2 ref href hnum
      have hlt := h.refs_entry_lt hrefs href
      have : ¬vipAllocNumUnset < maxVips := unset_not_lt_maxVips
      omega

theorem walk (h : st.Sound count refs) (hrefs : ∀ ref ∈ refs, ref.entry < count)
    (fuel : Nat) (seen : Nat → Bool) (hentry : entry < count)
    (hw : st.written entry = false) :
    vipAllocWalk st count fuel seen entry < count ∧
      st.written (vipAllocWalk st count fuel seen entry) = false := by
  induction fuel generalizing seen entry with
  | zero => exact ⟨hentry, hw⟩
  | succ fuel ih =>
      simp only [vipAllocWalk]
      split
      · split
        · exact ⟨hentry, hw⟩
        · rename_i b hb
          obtain ⟨hne, ref, href, hrefb, hnum⟩ := vipAllocBlocker_some hb
          rw [h.refs_eq] at href
          obtain ⟨orig, horig, rfl⟩ := List.mem_map.mp href
          by_cases hwr : st.written orig.entry = true
          · -- a written blocker would share its block with `entry`
            simp only [VipAllocReference.follow, hwr, if_true] at hrefb hnum
            have heq := h.claim.inj orig.entry entry (h.set _ (hrefs orig horig)) hnum
            exact absurd (hrefb.symm.trans heq) hne
          · simp only [VipAllocReference.follow, hwr, if_false, Bool.false_eq_true] at hrefb
            have hlt : b < count := hrefb ▸ hrefs orig horig
            exact ih _ hlt (by simpa [hrefb] using hwr)
      · exact ⟨hentry, hw⟩

theorem next (h : st.Sound count refs) (hcount : count ≤ maxVips)
    (hrefs : ∀ ref ∈ refs, ref.entry < count) {st' : VipAllocOrdering}
    (hnext : vipAllocNext st count = some (entry, st')) :
    (st'.commit entry).Sound count refs ∧
      (st'.commit entry).writeOrder = st.writeOrder ++ [entry] := by
  unfold vipAllocNext at hnext
  split at hnext
  · rename_i e hfind
    cases hnext
    have hlt : entry < count := List.mem_range.mp (List.mem_of_find?_eq_some hfind)
    have hcond := List.find?_some hfind
    simp only [Bool.and_eq_true, Bool.not_eq_true'] at hcond
    exact ⟨h.commit hlt hcond.1 hcond.2, rfl⟩
  · split at hnext
    · contradiction
    · rename_i first hfirst
      obtain ⟨moved, hmoved, heq⟩ := Option.map_eq_some_iff.mp hnext
      cases heq
      have hfirstLt : first < count :=
        List.mem_range.mp (List.mem_of_find?_eq_some hfirst)
      have hfirstW : st.written first = false := by simpa using List.find?_some hfirst
      obtain ⟨hlt, hw⟩ := h.walk hrefs count (fun _ => false) hfirstLt hfirstW
      obtain ⟨hsound, hw', horder, hready⟩ := h.relocate hcount hrefs hlt hw hmoved
      exact ⟨hsound.commit hlt hw' hready, by simp [VipAllocOrdering.commit, horder]⟩

end VipAllocOrdering.Sound

/-- Every round of the ordering loop keeps its invariant and writes one entry. -/
theorem vipAllocOrder_sound {count remaining : Nat} {refs : List VipAllocReference}
    {st st' : VipAllocOrdering} (h : st.Sound count refs) (hcount : count ≤ maxVips)
    (hrefs : ∀ ref ∈ refs, ref.entry < count)
    (hrun : vipAllocOrder count remaining st = some st') :
    st'.Sound count refs ∧
      st'.writeOrder.length = st.writeOrder.length + remaining := by
  induction remaining generalizing st with
  | zero =>
      cases hrun
      exact ⟨h, rfl⟩
  | succ remaining ih =>
      simp only [vipAllocOrder] at hrun
      split at hrun
      · contradiction
      · rename_i entry mid hnext
        obtain ⟨hmid, horder⟩ := h.next hcount hrefs hnext
        obtain ⟨hsound, hlen⟩ := ih hmid hrun
        refine ⟨hsound, ?_⟩
        rw [hlen, horder, List.length_append, List.length_singleton]
        omega

theorem mem_of_nodup_length {xs : List Nat} {count : Nat} (hnodup : xs.Nodup)
    (hbound : ∀ e ∈ xs, e < count) (hlen : xs.length = count) (e : Nat) :
    e ∈ xs ↔ e < count := by
  constructor
  · exact hbound e
  · intro he
    have hsub : xs.toFinset ⊆ Finset.range count := by
      intro x hx
      exact Finset.mem_range.mpr (hbound x (List.mem_toFinset.mp hx))
    have hcard : (Finset.range count).card ≤ xs.toFinset.card := by
      rw [List.toFinset_card_of_nodup hnodup, hlen, Finset.card_range]
    have heq := Finset.eq_of_subset_of_card_le hsub hcard
    exact List.mem_toFinset.mp (heq ▸ Finset.mem_range.mpr he)

/-! ## Plans -/

theorem vipAllocOwner_some {entries : List (List VipKey)} {key : VipKey} {e : Nat}
    (h : vipAllocOwner entries key = some e) :
    ∃ he : e < entries.length, ∃ k ∈ entries[e], vipAllocKeyEq k key = true := by
  obtain ⟨he, hany, -⟩ := List.findIdx?_eq_some_iff_getElem.mp h
  exact ⟨he, by simpa using hany⟩

theorem vipAllocOwner_eq {entries : List (List VipKey)} {i : Nat} {keys : List VipKey}
    (hdistinct : entries.flatten.Pairwise fun a b => vipAllocKeyEq a b = false)
    (hi : entries[i]? = some keys) {k key : VipKey} (hk : k ∈ keys)
    (heq : vipAllocKeyEq k key = true) : vipAllocOwner entries key = some i := by
  obtain ⟨hlt, rfl⟩ := List.getElem?_eq_some_iff.mp hi
  rw [vipAllocOwner, List.findIdx?_eq_some_iff_getElem]
  refine ⟨hlt, List.any_eq_true.mpr ⟨k, hk, heq⟩, ?_⟩
  intro j hj
  rw [Bool.not_eq_true, List.any_eq_false]
  intro k' hk' heq'
  have hbefore := List.pairwise_iff_getElem.mp (List.pairwise_flatten.mp hdistinct).2
    j i (hj.trans hlt) hlt hj k' hk' k hk
  rw [vipAllocKeyEq, vipKeyEq_trans heq' (vipKeyEq_symm heq)] at hbefore
  cases hbefore

theorem mem_vipAllocRefs {entries : List (List VipKey)}
    {baseline : List VipAllocBaseline} {ref : VipAllocReference} :
    ref ∈ vipAllocRefs entries baseline ↔
      ∃ b ∈ baseline, vipAllocOwner entries b.key = some ref.entry ∧ b.vipNum = ref.num := by
  simp only [vipAllocRefs, List.mem_filterMap, Option.map_eq_some_iff]
  constructor
  · rintro ⟨b, hb, e, he, rfl⟩
    exact ⟨b, hb, he, rfl⟩
  · rintro ⟨b, hb, he, hnum⟩
    exact ⟨b, hb, ref.entry, he, by rw [hnum]⟩

def VipAllocOrdering.start (entries : List (List VipKey))
    (baseline : List VipAllocBaseline) (claim : VipAllocClaim) : VipAllocOrdering :=
  ⟨vipAllocRefs entries baseline, claim.used, claim.num, fun _ => false, []⟩

theorem vipAlloc_ok {entries : List (List VipKey)} {baseline : List VipAllocBaseline}
    (h : (vipAlloc entries baseline).ok = true) :
    entries.length ≤ maxVips ∧ (∀ b ∈ baseline, b.vipNum < maxVips) ∧
    ∃ claim st, vipAllocClaim entries baseline = some claim ∧
      vipAllocOrder entries.length entries.length
        (.start entries baseline claim) = some st ∧
      vipAlloc entries baseline =
        ⟨true, st.num, ⟨st.writeOrder, vipAllocRelease baseline st.used⟩⟩ := by
  unfold vipAlloc at h ⊢
  split at h
  · exact absurd h (by decide)
  · rename_i hcounts
    split at h
    · exact absurd h (by decide)
    · rename_i hkeys
      split at h
      · exact absurd h (by decide)
      · rename_i hnums
        split at h
        · exact absurd h (by decide)
        · rename_i claim hclaim
          split at h
          · exact absurd h (by decide)
          · rename_i st horder
            rw [if_neg hcounts, if_neg hkeys, if_neg hnums]
            refine ⟨by omega, ?_, claim, st, hclaim, horder, rfl⟩
            intro b hb
            simp only [List.any_eq_true, decide_eq_true_eq, not_exists, not_and,
              ge_iff_le, not_le] at hnums
            exact hnums b hb

theorem VipAllocOrdering.start_sound {entries : List (List VipKey)}
    {baseline : List VipAllocBaseline} {claim : VipAllocClaim}
    (hclaim : claim.Sound entries.length)
    (hset : ∀ e, e < entries.length → claim.num e ≠ vipAllocNumUnset) :
    (VipAllocOrdering.start entries baseline claim).Sound entries.length
      (vipAllocRefs entries baseline) := by
  have hfollow : VipAllocReference.follow (fun _ => false) claim.num = id := by
    funext ref
    simp [VipAllocReference.follow]
  refine ⟨hclaim, hset, ?_, by simp [start], by simp [start], by simp [start],
    by simp [start]⟩
  simp [start, hfollow]

theorem vipAlloc_safe {entries : List (List VipKey)} {baseline : List VipAllocBaseline}
    (h : (vipAlloc entries baseline).ok = true) :
    (vipAlloc entries baseline).plan.Safe entries.length
      (vipAllocRefs entries baseline) (vipAlloc entries baseline).num := by
  obtain ⟨hcount, hbase, claim, st, hclaim, horder, heq⟩ := vipAlloc_ok h
  obtain ⟨hsound, hset⟩ := vipAllocClaim_sound hbase hclaim
  have hrefs : ∀ ref ∈ vipAllocRefs entries baseline, ref.entry < entries.length := by
    intro ref href
    obtain ⟨b, -, howner, -⟩ := mem_vipAllocRefs.mp href
    exact (vipAllocOwner_some howner).1
  obtain ⟨hst, hlen⟩ := vipAllocOrder_sound
    (VipAllocOrdering.start_sound hsound hset) hcount hrefs horder
  simp only [VipAllocOrdering.start, List.length_nil, Nat.zero_add] at hlen
  rw [heq]
  refine ⟨fun e he => (hst.claim.bound e (hst.set e he)).2,
    fun e f he _ hef => hst.claim.inj e f (hst.set e he) hef,
    hst.nodup, mem_of_nodup_length hst.nodup hst.bound hlen, hst.safe, ?_⟩
  intro n hn e he hnum
  simp only [vipAllocRelease, List.mem_filter, List.mem_range, Bool.and_eq_true,
    Bool.not_eq_true'] at hn
  have hused := (hst.claim.used_iff n (ne_unset_of_lt hn.1)).mpr ⟨e, hnum⟩
  simp [hn.2.2] at hused

end Marlin
