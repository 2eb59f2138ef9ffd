import Marlin.Marlind.ReconcileAside
import Marlin.Marlind.VipAllocPlan

/-!
# From the live `vip_map` to a plan

What `read_vip_baseline` reads back, and what the allocator's plan means once the
blocks it assigns have been stored in the configuration.
-/

namespace Marlin

open Marlin.Library

def Maps.baseline (mp : Maps) : List VipAllocBaseline :=
  mp.vipMap.entries.map fun kv => ⟨kv.1, kv.2.vipNum⟩

theorem Maps.mem_baseline {mp : Maps} {b : VipAllocBaseline} :
    b ∈ mp.baseline ↔ ∃ vipMeta, mp.vipMap.lookup b.key = some vipMeta ∧
      vipMeta.vipNum = b.vipNum := by
  simp only [Maps.baseline, List.mem_map]
  constructor
  · rintro ⟨⟨key, vipMeta⟩, hmem, rfl⟩
    exact ⟨vipMeta, Table.lookup_eq_of_mem_entries hmem, rfl⟩
  · rintro ⟨vipMeta, hlookup, hnum⟩
    exact ⟨⟨b.key, vipMeta⟩, AList.mem_lookup_iff.mp hlookup, by rw [hnum]⟩

structure Maps.Readable (mp : Maps) : Prop where
  count : mp.vipMap.keys.length ≤ maxVips
  num_lt : ∀ b ∈ mp.baseline, b.vipNum < maxVips

section Baseline

variable {e : Env} {G : Prop} {R : Maps → Maps → Prop} {start : Maps}

private theorem readVipBaseline_end (i : Nat) (hnext : start.vipMap.keys[i]? = none) :
    Triple e (fun s => s = start)
      (if Errno.enoent = .enoent then pure (start.baseline.take i)
        else failErrno "reading vip_map keys: " .enoent : Reconcile _) R
      (fun _ => ¬G) (fun out s => s = start ∧ out = start.baseline) := by
  rw [if_pos rfl]
  refine Triple.pure fun s hs => ⟨hs, List.take_of_length_le ?_⟩
  have hlen := List.getElem?_eq_none_iff.mp hnext
  simpa [Maps.baseline, AList.keys, List.keys] using hlen

private theorem getNextKey_reads (hsmooth : G → e.Smooth) (hhonest : e.Honest)
    {prev : Option VipKey} {next : Option VipKey}
    (hprev : start.vipMap.nextKey prev = next) {α : Type}
    {onError : Errno → Reconcile α} {onKey : VipKey → Reconcile α}
    {Q : α → Maps → Prop}
    (hfault : ∀ errno, errno ≠ .enoent → ¬G →
      Triple e (fun s => s = start) (onError errno) R (fun _ => ¬G) Q)
    (hend : next = none → Triple e (fun s => s = start) (onError .enoent) R (fun _ => ¬G) Q)
    (hkey : ∀ key, next = some key →
      Triple e (fun s => s = start) (onKey key) R (fun _ => ¬G) Q) :
    Triple e (fun s => s = start)
      (vipMapRef.getNextKey prev >>= fun answer => match answer with
        | .error errno => onError errno
        | .ok key => onKey key) R (fun _ => ¬G) Q := by
  refine Triple.bind (M := fun answer s => s = start ∧
      ((∃ errno, answer = .error errno ∧ errno ≠ .enoent ∧ ¬G) ∨
        (answer = .error .enoent ∧ next = none) ∨ ∃ key, answer = .ok key ∧ next = some key))
    (Triple.look ?_) fun answer => ?_
  · rintro n s rfl
    refine ⟨rfl, ?_⟩
    cases hread : e.readFault vipMapRef.name n with
    | some errno =>
        refine Or.inl ⟨errno, rfl, hhonest.reads n errno hread, fun g => ?_⟩
        rw [vipMapRef, (hsmooth g).reads n] at hread
        contradiction
    | none =>
        right
        simp only [vipMapRef, hprev]
        cases next with
        | none => exact Or.inl ⟨rfl, rfl⟩
        | some key => exact Or.inr ⟨key, rfl, rfl⟩
  · refine Triple.byStore fun s hs => ?_
    obtain ⟨rfl, ⟨errno, rfl, hne, hg⟩ | ⟨rfl, hnone⟩ | ⟨key, rfl, hsome⟩⟩ := hs
    · exact hfault errno hne hg
    · exact hend hnone
    · exact hkey key hsome

private theorem lookupElem_reads (hsmooth : G → e.Smooth) {key : VipKey} {vipMeta : VipMeta}
    (hlookup : start.vipMap.lookup key = some vipMeta) :
    Triple e (fun s => s = start) (vipMapRef.lookupElem key) R (fun _ => ¬G)
      (fun answer s => s = start ∧
        (answer = .ok vipMeta ∨ (∃ errno, answer = .error errno) ∧ ¬G)) := by
  refine Triple.look fun n s hs => ⟨hs, ?_⟩
  subst hs
  cases hread : e.readFault vipMapRef.name n with
  | some errno =>
      refine Or.inr ⟨⟨errno, rfl⟩, fun g => ?_⟩
      rw [vipMapRef, (hsmooth g).reads n] at hread
      contradiction
  | none => simp [vipMapRef, hlookup]

private theorem readVipBaselineFrom_triple (hsmooth : G → e.Smooth) (hhonest : e.Honest)
    (hread : G → start.Readable) (room i : Nat) (prev : Option VipKey)
    (hroom : room + i = maxVips)
    (hprev : start.vipMap.nextKey prev = start.vipMap.keys[i]?) :
    Triple e (fun s => s = start) (readVipBaselineFrom room prev (start.baseline.take i)) R
      (fun _ => ¬G) (fun out s => s = start ∧ out = start.baseline) := by
  induction room generalizing i prev with
  | zero =>
      unfold readVipBaselineFrom
      refine getNextKey_reads hsmooth hhonest hprev ?_ (readVipBaseline_end i) ?_
      · intro errno hne hg
        exact Triple.ite (fun h => absurd h hne) fun _ => failErrno_triple fun _ _ => hg
      · intro key hnext
        refine fail_triple fun s hs g => ?_
        obtain ⟨hlt, -⟩ := List.getElem?_eq_some_iff.mp hnext
        have hcount := (hread g).count
        omega
  | succ room ih =>
      unfold readVipBaselineFrom
      refine getNextKey_reads hsmooth hhonest hprev ?_ (readVipBaseline_end i) ?_
      · intro errno hne hg
        exact Triple.ite (fun h => absurd h hne) fun _ => failErrno_triple fun _ _ => hg
      · intro key hnext
        obtain ⟨hlt, hkey⟩ := List.getElem?_eq_some_iff.mp hnext
        have hlt' : i < start.vipMap.entries.length := by
          simpa [AList.keys, List.keys] using hlt
        obtain ⟨vipMeta, hentry⟩ : ∃ vipMeta, start.vipMap.entries[i] = ⟨key, vipMeta⟩ := by
          refine ⟨start.vipMap.entries[i].2, ?_⟩
          rw [← hkey]
          simp [AList.keys, List.keys]
        have hlookup : start.vipMap.lookup key = some vipMeta :=
          Table.lookup_eq_of_mem_entries (hentry ▸ List.getElem_mem hlt')
        have hbaseline : start.baseline[i]? = some ⟨key, vipMeta.vipNum⟩ := by
          simp [Maps.baseline, List.getElem?_eq_getElem hlt', hentry]
        refine Triple.bind (lookupElem_reads hsmooth hlookup) fun answer => ?_
        refine Triple.byStore fun s hs => ?_
        obtain ⟨rfl, rfl | ⟨⟨errno, rfl⟩, hg⟩⟩ := hs
        · refine Triple.ite ?_ ?_
          · intro hbig
            refine fail_triple fun _ _ g => ?_
            exact Nat.not_lt.mpr hbig ((hread g).num_lt _ (List.mem_of_getElem? hbaseline))
          · intro _
            have htake : s.baseline.take i ++ [⟨key, vipMeta.vipNum⟩] =
                s.baseline.take (i + 1) := by
              rw [List.take_add_one, hbaseline]
              rfl
            rw [htake]
            refine ih (i + 1) (some key) (by omega) ?_
            rw [← hkey]
            exact s.vipMap.nextKey_getElem hlt
        · exact failErrno_triple fun _ _ => hg

/-- Without dishonest answers, the baseline is the whole of `vip_map`. -/
theorem readVipBaseline_triple (hsmooth : G → e.Smooth) (hhonest : e.Honest)
    (hread : G → start.Readable) :
    Triple e (fun s => s = start) readVipBaseline R (fun _ => ¬G)
      (fun out s => s = start ∧ out = start.baseline) :=
  readVipBaselineFrom_triple hsmooth hhonest hread maxVips 0 none rfl rfl

end Baseline

/-! ## The plan, stored -/

@[simp] theorem MarlinConf.withNums_backends (conf : MarlinConf) (num : Nat → Nat) :
    (conf.withNums num).backends = conf.backends := rfl

theorem MarlinConf.withNums_getElem? {conf : MarlinConf} {num : Nat → Nat} {i : Nat}
    {vip : ConfVip} :
    (conf.withNums num).vips[i]? = some vip ↔
      ∃ old, conf.vips[i]? = some old ∧ vip = old.withNum (num i) := by
  simp only [MarlinConf.withNums, List.getElem?_mapIdx, Option.map_eq_some_iff]
  exact ⟨fun ⟨old, h, heq⟩ => ⟨old, h, heq.symm⟩, fun ⟨old, h, heq⟩ => ⟨old, h, heq.symm⟩⟩

theorem MarlinConf.mem_withNums {conf : MarlinConf} {num : Nat → Nat} {vip : ConfVip} :
    vip ∈ (conf.withNums num).vips ↔
      ∃ (i : Nat) (old : ConfVip), conf.vips[i]? = some old ∧ vip = old.withNum (num i) := by
  rw [List.mem_iff_getElem?]
  simp only [MarlinConf.withNums_getElem?]

theorem MarlinConf.withNums_map_keys (conf : MarlinConf) (num : Nat → Nat) :
    (conf.withNums num).vips.map ConfVip.keys = conf.vips.map ConfVip.keys := by
  refine List.ext_getElem? fun i => ?_
  simp [MarlinConf.withNums, List.getElem?_mapIdx, ConfVip.withNum, Function.comp_def]

@[simp] theorem MarlinConf.withNums_keys (conf : MarlinConf) (num : Nat → Nat) :
    (conf.withNums num).keys = conf.keys := by
  rw [MarlinConf.keys, MarlinConf.keys, List.flatMap_def, List.flatMap_def,
    MarlinConf.withNums_map_keys]

theorem MarlinConf.Checked.withNums {conf : MarlinConf} (h : conf.Checked)
    (num : Nat → Nat) : (conf.withNums num).Checked := by
  refine ⟨h.id_ne_zero, h.id_lt, h.ids_nodup, h.names_distinct, ?_, ?_⟩
  · rw [MarlinConf.KeysDistinct, MarlinConf.withNums_keys]
    exact h.keys_distinct
  · intro vip hvip m hm
    obtain ⟨i, old, hold, rfl⟩ := MarlinConf.mem_withNums.mp hvip
    exact h.resolved old (List.mem_of_getElem? hold) m hm

theorem genBlock_withNums {S : Type} [LinearOrder S] (score : UInt64 → Nat → S)
    (conf : MarlinConf) (num : Nat → Nat) (vip : ConfVip) (n row : Nat) :
    genBlock score (conf.withNums num) (vip.withNum n) row = genBlock score conf vip row := rfl

/--
What the reconciler knows about the blocks it is about to write, in terms of the
configuration that stores them and of the maps at the start.
-/
structure Planned (conf : MarlinConf) (plan : VipAllocPlan) (start : Maps) : Prop where
  keys_distinct : conf.KeysDistinct
  key_count : conf.keys.length ≤ maxVips
  num_lt : ∀ vip ∈ conf.vips, vip.vipMeta.vipNum < maxVips
  num_inj : ∀ (i j : Nat) (vip other : ConfVip), conf.vips[i]? = some vip →
    conf.vips[j]? = some other → vip.vipMeta.vipNum = other.vipMeta.vipNum → i = j
  order_nodup : plan.writeOrder.Nodup
  mem_order : ∀ i, i ∈ plan.writeOrder ↔ i < conf.vips.length
  order_safe : ∀ done i rest, plan.writeOrder = done ++ i :: rest →
    ∀ vip : ConfVip, conf.vips[i]? = some vip →
    ∀ (j : Nat) (other : ConfVip), conf.vips[j]? = some other → j ∉ done →
    ∀ key ∈ other.keys, ∀ vipMeta, start.vipMap.lookup key = some vipMeta →
    vipMeta.vipNum = vip.vipMeta.vipNum → j = i
  release_lt : ∀ n ∈ plan.release, n < maxVips
  release_free : ∀ n ∈ plan.release, ∀ vip ∈ conf.vips, vip.vipMeta.vipNum ≠ n

theorem vipAllocKeyCountOk_length {entries : List (List VipKey)} {keyCount : Nat}
    (h : vipAllocKeyCountOk keyCount entries = true) (hcount : keyCount ≤ maxVips) :
    keyCount + entries.flatten.length ≤ maxVips := by
  induction entries generalizing keyCount with
  | nil => simpa using hcount
  | cons keys entries ih =>
      simp only [vipAllocKeyCountOk] at h
      split at h
      · contradiction
      · rename_i hok
        rw [not_or] at hok
        have hrest := ih h (by omega)
        simp only [List.flatten_cons, List.length_append]
        omega

theorem vipAlloc_bounds {entries : List (List VipKey)} {baseline : List VipAllocBaseline}
    (h : (vipAlloc entries baseline).ok = true) :
    entries.flatten.length ≤ maxVips ∧
      ∀ n ∈ (vipAlloc entries baseline).plan.release, n < maxVips := by
  constructor
  · have hcount : vipAllocKeyCountOk 0 entries = true := by
      by_contra hno
      rw [Bool.not_eq_true] at hno
      have hfailed : vipAlloc entries baseline = .failed := by
        simp only [vipAlloc, hno, if_true, ite_self]
      rw [hfailed] at h
      exact absurd h (by decide)
    simpa using vipAllocKeyCountOk_length hcount (Nat.zero_le _)
  · obtain ⟨-, -, claim, st, -, -, heq⟩ := vipAlloc_ok h
    rw [heq]
    intro n hn
    exact List.mem_range.mp (List.mem_filter.mp hn).1

theorem vipAllocOwner_of_mem {conf : MarlinConf} (hdistinct : conf.KeysDistinct) {j : Nat}
    {vip : ConfVip} {key : VipKey} (hj : conf.vips[j]? = some vip) (hkey : key ∈ vip.keys) :
    vipAllocOwner (conf.vips.map ConfVip.keys) key = some j := by
  have hentry : (conf.vips.map ConfVip.keys)[j]? = some vip.keys := by
    rw [List.getElem?_map, hj]
    rfl
  exact vipAllocOwner_eq hdistinct hentry hkey (vipKeyEq_refl key)

theorem vipAlloc_planned {conf : MarlinConf} {start : Maps} (hdistinct : conf.KeysDistinct)
    (hok : (vipAlloc (conf.vips.map ConfVip.keys) start.baseline).ok = true) :
    Planned (conf.withNums (vipAlloc (conf.vips.map ConfVip.keys) start.baseline).num)
      (vipAlloc (conf.vips.map ConfVip.keys) start.baseline).plan start := by
  have hsafe := vipAlloc_safe hok
  obtain ⟨hcount, hrelease⟩ := vipAlloc_bounds hok
  simp only [List.length_map] at hsafe
  have hlt : ∀ {i : Nat} {vip : ConfVip}, conf.vips[i]? = some vip → i < conf.vips.length :=
    fun hi => (List.getElem?_eq_some_iff.mp hi).1
  refine ⟨?_, ?_, ?_, ?_, hsafe.order_nodup, ?_, ?_, hrelease, ?_⟩
  · rw [MarlinConf.KeysDistinct, MarlinConf.withNums_keys]
    exact hdistinct
  · rw [MarlinConf.withNums_keys]
    simpa [MarlinConf.keys, List.flatMap_def] using hcount
  · intro vip hvip
    obtain ⟨i, old, hold, rfl⟩ := MarlinConf.mem_withNums.mp hvip
    exact hsafe.num_lt i (hlt hold)
  · intro i j vip other hi hj hnum
    obtain ⟨old, hold, rfl⟩ := MarlinConf.withNums_getElem?.mp hi
    obtain ⟨old', hold', rfl⟩ := MarlinConf.withNums_getElem?.mp hj
    exact hsafe.num_inj i j (hlt hold) (hlt hold') hnum
  · intro i
    rw [hsafe.mem_order]
    simp [MarlinConf.withNums]
  · intro done i rest horder vip hi j other hj hdone key hkey vipMeta hlookup hnum
    obtain ⟨old, hold, rfl⟩ := MarlinConf.withNums_getElem?.mp hi
    obtain ⟨old', hold', rfl⟩ := MarlinConf.withNums_getElem?.mp hj
    by_contra hne
    have href : (⟨j, vipMeta.vipNum⟩ : VipAllocReference) ∈
        vipAllocRefs (conf.vips.map ConfVip.keys) start.baseline := by
      refine mem_vipAllocRefs.mpr ⟨⟨key, vipMeta.vipNum⟩, ?_, ?_, rfl⟩
      · exact Maps.mem_baseline.mpr ⟨vipMeta, hlookup, rfl⟩
      · exact vipAllocOwner_of_mem hdistinct hold' hkey
    exact hsafe.order_safe done i rest horder _ href hdone hne hnum
  · intro n hn vip hvip
    obtain ⟨i, old, hold, rfl⟩ := MarlinConf.mem_withNums.mp hvip
    exact hsafe.release_free n hn i (hlt hold)

end Marlin
