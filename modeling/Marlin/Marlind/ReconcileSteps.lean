import Marlin.Marlind.ReconcilePlan

/-!
# Every write of a reconcile is an allowed step

`reconcile_apply`, phase by phase, against `ReloadStep`: what holds of the maps
after each phase, and that each single write of it was allowed when it was made.
-/

namespace Marlin

open Marlin.Library

/-! ## The keys that reach `backends` -/

/-- A key that the kernel accepts denotes the identifier. -/
structure BackendKeys.Sound (keys : BackendKeys) : Prop where
  ofConf : ∀ b, b.id < maxBackends → keys.ofConf b = b.id ∨ maxBackends ≤ keys.ofConf b
  ofId : ∀ stack id, id < maxBackends → keys.ofId stack id = id ∨ maxBackends ≤ keys.ofId stack id

theorem BackendKeys.byId_sound : BackendKeys.byId.Sound :=
  ⟨fun _ _ => Or.inl rfl, fun _ _ _ => Or.inl rfl⟩

theorem BackendKeys.layout_sound : BackendKeys.layout.Sound := by
  constructor
  · intro b hb
    simp only [layout, maxBackends] at *
    omega
  · intro stack id hid
    simp only [layout, maxBackends] at *
    omega

theorem BackendKeys.layout_ofId_zero {id : Nat} (hid : id < maxBackends) :
    BackendKeys.layout.ofId 0 id = id := by
  simp only [layout, maxBackends] at *
  omega

/-! ## What holds between the phases -/

/-- Only addresses that the configuration keeps are live, as they were. -/
structure Kept (conf : MarlinConf) (start mp : Maps) : Prop where
  live : ∀ key vipMeta, key.Canonical → mp.vipMap.lookup key = some vipMeta →
    key ∈ conf.keys ∧ start.vipMap.lookup key = some vipMeta
  canonical : start.KeysCanonical → mp.KeysCanonical

section

variable {S : Type} [LinearOrder S] (score : UInt64 → Nat → S)

/-- The entries with the indices in `done` have been written. -/
structure Progress (conf : MarlinConf) (start : Maps) (done : List Nat) (mp : Maps) : Prop where
  filled : Filled conf mp
  canonical : start.KeysCanonical → mp.KeysCanonical
  live : ∀ key vipMeta, key.Canonical → mp.vipMap.lookup key = some vipMeta →
    ∃ (i : Nat) (vip : ConfVip), conf.vips[i]? = some vip ∧ key ∈ vip.keys ∧
      (vipMeta = vip.vipMeta ∨ (i ∉ done ∧ start.vipMap.lookup key = some vipMeta))
  published : ∀ i ∈ done, ∀ vip : ConfVip, conf.vips[i]? = some vip →
    ∀ key ∈ vip.keys, mp.vipMap.lookup key = some vip.vipMeta
  rows : ∀ i ∈ done, ∀ vip : ConfVip, conf.vips[i]? = some vip →
    Generated score conf vip vip.vipMeta.vipNum mp

structure Applied (conf : MarlinConf) (mp : Maps) : Prop where
  filled : Filled conf mp
  settled : Settled score conf mp
  published : ∀ vip ∈ conf.vips, ∀ key ∈ vip.keys,
    mp.vipMap.lookup key = some vip.vipMeta
  rows : ∀ vip ∈ conf.vips, Generated score conf vip vip.vipMeta.vipNum mp

end

def Retired (conf : MarlinConf) (ids : List Nat) (mp : Maps) : Prop :=
  ∀ id ∈ ids, (∀ b ∈ conf.backends, b.id ≠ id) → (mp.backends id).id ≠ id

section Phases

variable {S : Type} [LinearOrder S] {score : UInt64 → Nat → S} {conf : MarlinConf}
  {start : Maps} {plan : VipAllocPlan} {e : Env} {G : Prop}

/-! ## Removing stale keys -/

theorem keyInConf_iff (hcanon : ∀ key ∈ conf.keys, key.Canonical) {key : VipKey}
    (hkey : key.Canonical) : keyInConf conf key = true ↔ key ∈ conf.keys := by
  simp only [keyInConf, List.any_eq_true, MarlinConf.keys, List.mem_flatMap]
  constructor
  · rintro ⟨vip, hvip, k, hk, heq⟩
    have hk' : k.Canonical := hcanon k (List.mem_flatMap.mpr ⟨vip, hvip, hk⟩)
    exact ⟨vip, hvip, (vipKeyEq_iff hkey hk').mp heq ▸ hk⟩
  · rintro ⟨vip, hvip, hk⟩
    exact ⟨vip, hvip, key, hk, vipKeyEq_refl key⟩

theorem removeStaleVipKey_triple (hsmooth : G → e.Smooth) (hhonest : e.Honest)
    {row : VipAllocBaseline} {P Q : Maps → Prop} {R : Maps → Maps → Prop}
    (hkept : keyInConf conf row.key = true → ∀ s, P s → Q s)
    (hR : ¬keyInConf conf row.key = true → ∀ s, P s →
      R s { s with vipMap := s.vipMap.erase row.key })
    (herased : ¬keyInConf conf row.key = true → ∀ s, P s →
      Q { s with vipMap := s.vipMap.erase row.key })
    (habsent : ¬keyInConf conf row.key = true → ∀ s, P s → row.key ∉ s.vipMap → Q s) :
    Triple e P (removeStaleVipKey conf row) R (fun _ => ¬G) (fun _ => Q) := by
  refine Triple.ite (fun hin => Triple.pure (hkept hin)) fun hout => ?_
  refine Triple.bind (vipMapRef.deleteElem_triple hsmooth (hR hout) (herased hout)
    (habsent hout)) fun answer => ?_
  cases answer with
  | none => exact Triple.pure fun s hs => hs.1 rfl
  | some errno =>
      refine Triple.ite ?_ ?_
      · intro henoent
        refine Triple.pure fun s hs => ?_
        rcases hs.2 errno rfl with h | ⟨-, -, n, hfault⟩
        · exact h.1
        · exact absurd henoent (hhonest.deletes n errno hfault)
      · intro hne
        exact failErrno_triple fun s hs => ((hs.2 errno rfl).resolve_left fun h => hne h.2).2.1

theorem removeStaleVipKeys_triple (hsmooth : G → e.Smooth) (hhonest : e.Honest)
    (hcanon : ∀ key ∈ conf.keys, key.Canonical) :
    Triple e (fun s => s = start) (removeStaleVipKeys conf start.baseline)
      (ReloadStep score conf) (fun _ => ¬G) (fun _ => Kept conf start) := by
  let J : List VipAllocBaseline → Maps → Prop := fun done s =>
    (∀ key vipMeta, s.vipMap.lookup key = some vipMeta →
      start.vipMap.lookup key = some vipMeta) ∧
    ∀ b ∈ done, b.key.Canonical → b.key ∉ conf.keys → s.vipMap.lookup b.key = none
  refine Triple.consequence (Triple.forEach (J := J) start.baseline ?_) ?_
    (fun _ _ h => h) (fun _ h => h) ?_
  · intro done row rest hrows
    have hstale : ¬keyInConf conf row.key = true → row.key ∉ conf.keys := fun hout h =>
      hout ((keyInConf_iff hcanon (hcanon row.key h)).mpr h)
    refine removeStaleVipKey_triple hsmooth hhonest ?_ ?_ ?_ ?_
    · intro hin s hs
      refine ⟨hs.1, ?_⟩
      intro b hb hb' hnot
      rcases List.mem_append.mp hb with hb | hb
      · exact hs.2 b hb hb' hnot
      · rw [List.mem_singleton.mp hb] at hb' hnot
        exact absurd ((keyInConf_iff hcanon hb').mp hin) hnot
    · intro hout s _
      exact .dropKey row.key (hstale hout) rfl
    · intro _ s hs
      refine ⟨?_, ?_⟩
      · intro key vipMeta hlookup
        exact hs.1 key vipMeta ((Table.lookup_erase_iff _ _ _ _).mp hlookup).2
      · intro b hb hb' hnot
        by_cases heq : b.key = row.key
        · rw [heq]
          exact AList.lookup_erase _ _
        · have hdone : b ∈ done := by
            rcases List.mem_append.mp hb with hb | hb
            · exact hb
            · exact absurd (congrArg _ (List.mem_singleton.mp hb)) heq
          rw [AList.lookup_erase_ne heq]
          exact hs.2 b hdone hb' hnot
    · intro _ s hs hmem
      refine ⟨hs.1, ?_⟩
      intro b hb hb' hnot
      rcases List.mem_append.mp hb with hb | hb
      · exact hs.2 b hb hb' hnot
      · rw [List.mem_singleton.mp hb]
        exact AList.lookup_eq_none.mpr hmem
  · rintro s rfl
    exact ⟨fun key vipMeta h => h, by simp⟩
  · intro _ s hs
    refine ⟨?_, fun hstart key vipMeta hlookup => hstart key vipMeta (hs.1 key vipMeta hlookup)⟩
    intro key vipMeta hkey hlookup
    have hold := hs.1 key vipMeta hlookup
    refine ⟨?_, hold⟩
    by_contra hnot
    have hnone := hs.2 ⟨key, vipMeta.vipNum⟩ (Maps.mem_baseline.mpr ⟨vipMeta, hold, rfl⟩)
      hkey hnot
    simp [hnone] at hlookup

/-! ## Writing the backends -/

private theorem updateBackend_triple (hsmooth : G → e.Smooth) {P Q : Maps → Prop}
    {R : Maps → Maps → Prop} {key : Nat} {value : Backend}
    (hR : key < maxBackends → ∀ s, P s →
      R s { s with backends := Function.update s.backends key value })
    (hQ : key < maxBackends → ∀ s, P s →
      Q { s with backends := Function.update s.backends key value })
    (hrange : G → key < maxBackends) :
    Triple e P (updateBackend key value) R (fun _ => ¬G)
      (fun answer s => (answer = none → Q s) ∧ (answer ≠ none → ¬G)) := by
  refine Triple.put ?_ ?_
  · intro n s hs
    cases hfault : e.writeFault n with
    | some fault => simp [chain]
    | none =>
        dsimp only
        split
        · rename_i hkey
          simpa [chain] using hR hkey s hs
        · simp [chain]
  · intro n s hs
    cases hfault : e.writeFault n with
    | some fault =>
        refine ⟨by simp, fun _ g => ?_⟩
        rw [(hsmooth g).writes n] at hfault
        contradiction
    | none =>
        dsimp only
        split
        · rename_i hkey
          exact ⟨fun _ => hQ hkey s hs, by simp⟩
        · rename_i hkey
          exact ⟨by simp, fun _ g => hkey (hrange g)⟩

theorem writeBackends_triple (hsmooth : G → e.Smooth) {keys : BackendKeys} (hkeys : keys.Sound)
    (hrange : G → ∀ b ∈ conf.backends, keys.ofConf b < maxBackends) :
    Triple e (Kept conf start) (writeBackends keys conf) (ReloadStep score conf)
      (fun _ => ¬G) (fun _ s => Kept conf start s ∧ Filled conf s) := by
  let J : List ConfBackend → Maps → Prop := fun done s =>
    Kept conf start s ∧ (conf.IdsValid →
      ∀ b ∈ done, ∃ ifindex, s.backends b.id = backendValue b ifindex)
  refine Triple.pre (Triple.forEach (J := J) conf.backends ?_) fun s hs => ⟨hs, by simp⟩
  intro done b rest hbackends
  have hb : b ∈ conf.backends := by simp [hbackends]
  have hkey : keys.ofConf b < maxBackends → conf.IdsValid → keys.ofConf b = b.id :=
    fun hlt hvalid => (hkeys.ofConf b (hvalid.id_lt b hb)).resolve_right (by omega)
  refine Triple.bind (M := fun _ => J done) ?_ fun ifindex => ?_
  · exact Triple.ite (fun _ => Triple.look fun _ _ hs => hs) fun _ =>
      Triple.pure fun _ hs => hs
  refine Triple.bind (updateBackend_triple (Q := J (done ++ [b])) hsmooth ?_ ?_
    fun g => hrange g b hb) fun answer => ?_
  · intro hlt s hs
    exact .fill b _ ifindex hb (hkey hlt) rfl
  · intro hlt s hs
    refine ⟨⟨hs.1.live, hs.1.canonical⟩, ?_⟩
    intro hvalid b' hb'
    rw [hkey hlt hvalid]
    by_cases heq : b'.id = b.id
    · have hmem : b' ∈ conf.backends := by
        rw [hbackends]
        rcases List.mem_append.mp hb' with h | h
        · simp [h]
        · simp [List.mem_singleton.mp h]
      have hsame := List.inj_on_of_nodup_map hvalid.ids_nodup hmem hb heq
      subst hsame
      exact ⟨ifindex, by simp⟩
    · have hdone : b' ∈ done := by
        rcases List.mem_append.mp hb' with h | h
        · exact h
        · exact absurd (congrArg _ (List.mem_singleton.mp h)) heq
      obtain ⟨ifindex', hvalue⟩ := hs.2 hvalid b' hdone
      exact ⟨ifindex', by simpa [Function.update_of_ne heq] using hvalue⟩
  · cases answer with
    | none => exact Triple.pure fun s hs => hs.1 rfl
    | some errno => exact failErrno_triple fun s hs => hs.2 (by simp)

/-! ## Writing the entries -/

theorem Kept.progress {s : Maps} (h : Kept conf start s) (hfilled : Filled conf s) :
    Progress score conf start [] s := by
  refine ⟨hfilled, h.canonical, ?_, by simp, by simp⟩
  intro key vipMeta hcanon hlookup
  obtain ⟨hkey, hold⟩ := h.live key vipMeta hcanon hlookup
  obtain ⟨vip, hvip, hmem⟩ := List.mem_flatMap.mp hkey
  obtain ⟨i, hi⟩ := List.mem_iff_getElem?.mp hvip
  exact ⟨i, vip, hi, hmem, Or.inr ⟨by simp, hold⟩⟩

variable {done rest : List Nat} {i : Nat} {vip : ConfVip} {s : Maps}

/-- When it is the turn of `vip`, its block is read by its own addresses only. -/
theorem Progress.owned (hplan : Planned conf plan start)
    (horder : plan.writeOrder = done ++ i :: rest) (hi : conf.vips[i]? = some vip)
    (h : Progress score conf start done s) {key : VipKey} {vipMeta : VipMeta}
    (hcanon : key.Canonical) (hlookup : s.vipMap.lookup key = some vipMeta)
    (hnum : vipMeta.vipNum = vip.vipMeta.vipNum) : key ∈ vip.keys := by
  obtain ⟨j, owner, hj, hkey, hcases⟩ := h.live key vipMeta hcanon hlookup
  have hij : j = i := by
    rcases hcases with rfl | ⟨hdone, hold⟩
    · exact hplan.num_inj j i owner vip hj hi hnum
    · exact hplan.order_safe done i rest horder vip hi j owner hj hdone key hkey vipMeta
        hold hnum
  subst hij
  rw [hj] at hi
  cases hi
  exact hkey

private theorem not_mem_done (hplan : Planned conf plan start)
    (horder : plan.writeOrder = done ++ i :: rest) : i ∉ done := by
  have hnodup := hplan.order_nodup
  rw [horder, List.nodup_append] at hnodup
  intro hmem
  exact hnodup.2.2 i hmem i (by simp) rfl

theorem Progress.setFwd (h : Progress score conf start done s) {num row value : Nat}
    (hrow : row < tableSize)
    (hnum : ∀ j ∈ done, ∀ other : ConfVip, conf.vips[j]? = some other →
      other.vipMeta.vipNum ≠ num) :
    Progress score conf start done (s.setFwd (fwdIndex num row) value) := by
  refine ⟨h.filled, h.canonical, h.live, h.published, ?_⟩
  intro j hj other hother row' hrow'
  rw [Maps.fwdRow_setFwd_of_ne s value hrow hrow' fun hsame => hnum j hj other hother hsame.1]
  exact h.rows j hj other hother row' hrow'

theorem Progress.publish (hplan : Planned conf plan start)
    (hcanon : ∀ key ∈ conf.keys, key.Canonical) (hi : conf.vips[i]? = some vip)
    (hnew : i ∉ done) (h : Progress score conf start done s) {key : VipKey}
    (hkey : key ∈ vip.keys) (slot : Nat) :
    Progress score conf start done
      { s with vipMap := s.vipMap.update slot key vip.vipMeta } := by
  refine ⟨h.filled, ?_, ?_, ?_, h.rows⟩
  · intro hstart key' vipMeta hlookup
    rw [Table.lookup_update] at hlookup
    by_cases heq : key' = key
    · exact hcanon key' (List.mem_flatMap.mpr ⟨vip, List.mem_of_getElem? hi, heq ▸ hkey⟩)
    · rw [if_neg heq] at hlookup
      exact h.canonical hstart key' vipMeta hlookup
  · intro key' vipMeta hkey' hlookup
    rw [Table.lookup_update] at hlookup
    by_cases heq : key' = key
    · rw [if_pos heq] at hlookup
      cases hlookup
      exact ⟨i, vip, hi, heq ▸ hkey, Or.inl rfl⟩
    · rw [if_neg heq] at hlookup
      exact h.live key' vipMeta hkey' hlookup
  · intro j hj other hother key' hkey'
    have hne : key' ≠ key := by
      rintro rfl
      have hij := MarlinConf.owner_unique hplan.keys_distinct hi hother hkey hkey'
      exact hnew (hij ▸ hj)
    rw [Table.lookup_update, if_neg hne]
    exact h.published j hj other hother key' hkey'

theorem Progress.room (hplan : Planned conf plan start) (hstart : start.KeysCanonical)
    (h : Progress score conf start done s) {key : VipKey} (hkey : key ∈ conf.keys)
    (hnew : key ∉ s.vipMap) : s.vipMap.keys.length < maxVips := by
  have hnodup : (key :: s.vipMap.keys).Nodup :=
    List.nodup_cons.mpr ⟨hnew, s.vipMap.keys_nodup⟩
  have hsub : key :: s.vipMap.keys ⊆ conf.keys := by
    intro k hk
    rcases List.mem_cons.mp hk with rfl | hk
    · exact hkey
    · obtain ⟨vipMeta, hlookup⟩ := Option.isSome_iff_exists.mp (AList.lookup_isSome.mpr hk)
      obtain ⟨j, owner, hj, hown, -⟩ :=
        h.live k vipMeta (h.canonical hstart k vipMeta hlookup) hlookup
      exact List.mem_flatMap.mpr ⟨owner, List.mem_of_getElem? hj, hown⟩
  have hlen := (List.subperm_of_subset hnodup hsub).length_le
  have hcount := hplan.key_count
  simp only [List.length_cons] at hlen
  omega

theorem Progress.finish (h : Progress score conf start done s)
    (hi : conf.vips[i]? = some vip) (hrows : Generated score conf vip vip.vipMeta.vipNum s)
    (hpub : ∀ key ∈ vip.keys, s.vipMap.lookup key = some vip.vipMeta) :
    Progress score conf start (done ++ [i]) s := by
  refine ⟨h.filled, h.canonical, ?_, ?_, ?_⟩
  · intro key vipMeta hcanon hlookup
    obtain ⟨j, owner, hj, hkey, hcases⟩ := h.live key vipMeta hcanon hlookup
    refine ⟨j, owner, hj, hkey, ?_⟩
    rcases hcases with heq | ⟨hdone, hold⟩
    · exact Or.inl heq
    · by_cases hij : j = i
      · subst hij
        rw [hj] at hi
        cases hi
        rw [hpub key hkey] at hlookup
        exact Or.inl (Option.some.inj hlookup).symm
      · exact Or.inr ⟨by simp [hdone, hij], hold⟩
  · intro j hj other hother
    rcases List.mem_append.mp hj with hj | hj
    · exact h.published j hj other hother
    · rw [List.mem_singleton.mp hj, hi] at hother
      cases hother
      exact hpub
  · intro j hj other hother
    rcases List.mem_append.mp hj with hj | hj
    · exact h.rows j hj other hother
    · rw [List.mem_singleton.mp hj, hi] at hother
      cases hother
      exact hrows

theorem writeVip_triple (hsmooth : G → e.Smooth) (hplan : Planned conf plan start)
    (hcanon : ∀ key ∈ conf.keys, key.Canonical) (hstart : G → start.KeysCanonical)
    (horder : plan.writeOrder = done ++ i :: rest) (hi : conf.vips[i]? = some vip) :
    Triple e (Progress score conf start done) (writeVip score conf vip)
      (ReloadStep score conf) (fun _ => ¬G)
      (fun _ => Progress score conf start (done ++ [i])) := by
  have hvip : vip ∈ conf.vips := List.mem_of_getElem? hi
  have hnew := not_mem_done hplan horder
  refine Triple.bind (callocFails_triple hsmooth) fun noMembers => ?_
  refine Triple.bind (callocFails_triple hsmooth) fun noBlock => ?_
  refine Triple.ite ?_ ?_
  · rintro (⟨-, rfl⟩ | rfl)
    · exact fail_triple fun s hs => hs.1.2 rfl
    · exact fail_triple fun s hs => hs.2 rfl
  · intro _
    refine Triple.pre (P := Progress score conf start done) ?_ fun s hs => hs.1.1
    refine Triple.bind (writeFwdBlock_triple hsmooth (hplan.num_lt vip hvip) ?_) fun _ => ?_
    · intro row hrow s hs
      refine ⟨.writeRow vip row hvip hrow hs.filled
        (fun _ _ hkey hlookup hnum => hs.owned hplan horder hi hkey hlookup hnum) rfl, ?_⟩
      refine hs.setFwd hrow fun j hj other hother hnum => ?_
      exact hnew (hplan.num_inj j i other vip hother hi hnum ▸ hj)
    let J : List VipKey → Maps → Prop := fun pub s =>
      (Progress score conf start done s ∧ Generated score conf vip vip.vipMeta.vipNum s) ∧
        ∀ key ∈ pub, s.vipMap.lookup key = some vip.vipMeta
    refine Triple.consequence (Triple.forEach (J := J) vip.keys ?_)
      (fun s hs => ⟨hs, by simp⟩) (fun _ _ h => h) (fun _ h => h)
      fun _ s hs => hs.1.1.finish hi hs.1.2 hs.2
    intro pub key more hkeys
    have hkey : key ∈ vip.keys := by simp [hkeys]
    refine Triple.bind (vipMapRef.updateElem_triple (Q := J (pub ++ [key])) hsmooth ?_ ?_ ?_)
      fun answer => ?_
    · intro s slot hs _
      exact .publish vip key slot hvip hkey hs.1.1.filled hs.1.2 rfl
    · intro s slot hs _
      refine ⟨⟨hs.1.1.publish hplan hcanon hi hnew hkey slot, hs.1.2⟩, ?_⟩
      intro key' hkey'
      change (s.vipMap.update slot key vip.vipMeta).lookup key' = _
      rw [Table.lookup_update]
      by_cases heq : key' = key
      · rw [if_pos heq]
      · rw [if_neg heq]
        exact hs.2 key' (by simpa [heq] using hkey')
    · intro g s hs hnot
      exact hs.1.1.room hplan (hstart g) (List.mem_flatMap.mpr ⟨vip, hvip, hkey⟩) hnot
    · cases answer with
      | none => exact Triple.pure fun s hs => hs.1 rfl
      | some errno => exact failErrno_triple fun s hs => hs.2 (by simp)

/-! ## Releasing blocks and retiring backends -/

theorem Progress.applied (hplan : Planned conf plan start)
    (h : Progress score conf start plan.writeOrder s) : Applied score conf s := by
  have hmem : ∀ {j : Nat} {other : ConfVip}, conf.vips[j]? = some other →
      j ∈ plan.writeOrder := fun hj =>
    (hplan.mem_order _).mpr (List.getElem?_eq_some_iff.mp hj).1
  refine ⟨h.filled, ?_, ?_, ?_⟩
  · intro key vipMeta hcanon hlookup
    obtain ⟨j, owner, hj, hkey, hcases⟩ := h.live key vipMeta hcanon hlookup
    have heq : vipMeta = owner.vipMeta := hcases.resolve_right fun hold => hold.1 (hmem hj)
    refine ⟨owner, List.mem_of_getElem? hj, hkey, heq, ?_⟩
    rw [heq]
    exact h.rows j (hmem hj) owner hj
  · intro owner howner
    obtain ⟨j, hj⟩ := List.mem_iff_getElem?.mp howner
    exact h.published j (hmem hj) owner hj
  · intro owner howner
    obtain ⟨j, hj⟩ := List.mem_iff_getElem?.mp howner
    exact h.rows j (hmem hj) owner hj

theorem releaseStaleVipBlocks_triple (hsmooth : G → e.Smooth) (hplan : Planned conf plan start) :
    Triple e (Progress score conf start plan.writeOrder) (releaseStaleVipBlocks plan.release)
      (ReloadStep score conf) (fun _ => ¬G)
      (fun _ => Progress score conf start plan.writeOrder) := by
  refine Triple.forEach (J := fun _ => Progress score conf start plan.writeOrder) _ ?_
  intro before num after hrelease
  have hnum : num ∈ plan.release := by simp [hrelease]
  refine zeroFwdBlock_triple hsmooth (hplan.release_lt num hnum) ?_
  intro row hrow s hs
  refine ⟨.zeroRow num row hrow ?_ rfl, hs.setFwd hrow ?_⟩
  · intro key vipMeta hcanon hlookup
    obtain ⟨owner, howner, -, rfl, -⟩ := (hs.applied hplan).settled key vipMeta hcanon hlookup
    exact hplan.release_free num hnum owner howner
  · intro j _ other hother
    exact hplan.release_free num hnum other (List.mem_of_getElem? hother)

theorem backendIdWanted_iff {id : Nat} :
    backendIdWanted conf id = true ↔ ∃ b ∈ conf.backends, b.id = id := by
  simp [backendIdWanted]

theorem Applied.retire (h : Applied score conf s) {id : Nat}
    (hid : ∀ b ∈ conf.backends, b.id ≠ id) :
    Applied score conf { s with backends := Function.update s.backends id 0 } := by
  refine ⟨?_, h.settled, h.published, h.rows⟩
  intro hvalid b hb
  obtain ⟨ifindex, hvalue⟩ := h.filled hvalid b hb
  exact ⟨ifindex, by simpa [Function.update_of_ne (hid b hb)] using hvalue⟩

/-- The key of an identifier stays within the map once it has been. -/
def KeysSteady (e : Env) (keys : BackendKeys) : Prop :=
  ∀ n m id, id < maxBackends → keys.ofId (e.stack n) id < maxBackends →
    keys.ofId (e.stack m) id < maxBackends

/-- Every slot is read, and the key of a slot denotes its identifier. -/
structure Faithful (e : Env) (keys : BackendKeys) : Prop where
  reads : ∀ n, e.readFault .backends n = none
  ofId : ∀ n id, id < maxBackends → keys.ofId (e.stack n) id = id

section Retire

variable {keys : BackendKeys}

private def RetireInv (score : UInt64 → Nat → S) (conf : MarlinConf) (e : Env)
    (keys : BackendKeys) (done : List Nat) (s : Maps) : Prop :=
  Applied score conf s ∧ (Faithful e keys → Retired conf done s)

private theorem RetireInv.skip {id : Nat} (h : RetireInv score conf e keys done s)
    (hid : Faithful e keys → (∀ b ∈ conf.backends, b.id ≠ id) → (s.backends id).id ≠ id) :
    RetireInv score conf e keys (done ++ [id]) s := by
  refine ⟨h.1, fun hf id' hid' => ?_⟩
  rcases List.mem_append.mp hid' with hid' | hid'
  · exact h.2 hf id' hid'
  · rw [List.mem_singleton.mp hid']
    exact hid hf

private theorem RetireInv.zero {id : Nat} (h : RetireInv score conf e keys done s)
    (hpos : id ≠ 0) (hid : ∀ b ∈ conf.backends, b.id ≠ id) :
    RetireInv score conf e keys (done ++ [id])
      { s with backends := Function.update s.backends id 0 } := by
  refine ⟨h.1.retire hid, fun hf id' hid' hunwanted => ?_⟩
  by_cases heq : id' = id
  · subst heq
    simpa using hpos.symm
  · have hdone : id' ∈ done := by simpa [heq] using hid'
    simpa [Function.update_of_ne heq] using h.2 hf id' hdone hunwanted

private theorem localKey_triple (hkeys : keys.Sound) {P : Maps → Prop}
    {R : Maps → Maps → Prop} {S' : Maps → Prop} {id : Nat} (hid : id < maxBackends) :
    Triple e P (localKey keys id) R S' (fun key s =>
      ((key < maxBackends → key = id) ∧ (Faithful e keys → key = id) ∧
        ∃ n, key = keys.ofId (e.stack n) id) ∧ P s) := by
  refine Triple.look fun n s hs => ⟨⟨?_, ?_, n, rfl⟩, hs⟩
  · intro hlt
    exact (hkeys.ofId (e.stack n) id hid).resolve_right (by omega)
  · intro hf
    exact hf.ofId n id hid

private theorem retireBackend_triple (hsmooth : G → e.Smooth) (hkeys : keys.Sound)
    (hids : G → KeysSteady e keys) {id : Nat} (hpos : id ≠ 0) (hid : id < maxBackends) :
    Triple e (RetireInv score conf e keys done) (retireBackend keys conf id)
      (ReloadStep score conf) (fun _ => ¬G)
      (fun _ => RetireInv score conf e keys (done ++ [id])) := by
  refine Triple.bind (localKey_triple hkeys hid) fun key => Triple.assume fun hkey => ?_
  refine Triple.bind (M := fun answer s => RetireInv score conf e keys done s ∧
      (∀ cur, answer = .ok cur → cur = s.backends id ∧ key < maxBackends) ∧
      (Faithful e keys → answer = .ok (s.backends id))) (Triple.look ?_) fun answer => ?_
  · intro n s hs
    refine ⟨hs, ?_, ?_⟩
    · intro cur hcur
      cases hread : e.readFault .backends n with
      | some errno => simp [hread] at hcur
      | none =>
          by_cases hlt : key < maxBackends
          · simp only [hread, if_pos hlt, Except.ok.injEq] at hcur
            have hcur : cur = s.backends id := by rw [← hcur, hkey.1 hlt]
            exact ⟨hcur, hlt⟩
          · simp [hread, hlt] at hcur
    · intro hf
      simp [hf.reads n, hkey.2.1 hf, hid]
  · cases answer with
    | error errno =>
        refine Triple.pure fun s hs => hs.1.skip fun hf => ?_
        have hok := hs.2.2 hf
        cases hok
    | ok cur =>
        refine Triple.ite ?_ ?_
        · intro hne
          refine Triple.pure fun s hs => hs.1.skip fun _ _ => ?_
          rw [← (hs.2.1 cur rfl).1]
          exact hne
        · intro hown
          refine Triple.ite ?_ ?_
          · intro hwanted
            obtain ⟨b, hb, hbid⟩ := backendIdWanted_iff.mp hwanted
            exact Triple.pure fun s hs => hs.1.skip fun _ hno => absurd hbid (hno b hb)
          · intro hunwanted
            have hno : ∀ b ∈ conf.backends, b.id ≠ id := fun b hb hbid =>
              hunwanted (backendIdWanted_iff.mpr ⟨b, hb, hbid⟩)
            refine Triple.pre (P := fun s => key < maxBackends ∧
              RetireInv score conf e keys done s ∧ (s.backends id).id = id) ?_
              fun s hs => ⟨(hs.2.1 cur rfl).2, hs.1, ?_⟩
            · refine Triple.assume fun hread => ?_
              refine Triple.bind (localKey_triple hkeys hid) fun again =>
                Triple.assume fun hagain => ?_
              -- the update takes the address once more: same identifier, same stack
              have hlands : G → again < maxBackends := by
                intro g
                obtain ⟨n, hkey⟩ := hkey.2.2
                obtain ⟨m, hagain⟩ := hagain.2.2
                rw [hagain]
                exact hids g n m id hid (hkey ▸ hread)
              refine Triple.bind (updateBackend_triple
                (Q := RetireInv score conf e keys (done ++ [id])) hsmooth ?_ ?_ hlands)
                fun answer => ?_
              · intro hlt s hs
                rw [hagain.1 hlt]
                exact .retire id hno hs.2 hs.1.1.settled rfl
              · intro hlt s hs
                rw [hagain.1 hlt]
                exact hs.1.zero hpos hno
              · cases answer with
                | none => exact Triple.pure fun s hs => hs.1 rfl
                | some errno => exact failErrno_triple fun s hs => hs.2 (by simp)
            · rw [← (hs.2.1 cur rfl).1]
              exact not_not.mp hown

theorem retireStaleBackends_triple (hsmooth : G → e.Smooth) (hkeys : keys.Sound)
    (hids : G → KeysSteady e keys) :
    Triple e (Applied score conf) (retireStaleBackends keys conf) (ReloadStep score conf)
      (fun _ => ¬G) (fun _ s => Applied score conf s ∧
        (Faithful e keys → Retired conf (List.range' 1 (maxBackends - 1)) s)) := by
  refine Triple.pre (Triple.forEach (J := RetireInv score conf e keys) _ ?_)
    fun s hs => ⟨hs, by simp [Retired]⟩
  intro done id rest hrange
  have hmem : id ∈ List.range' 1 (maxBackends - 1) := by simp [hrange]
  rw [List.mem_range'_1] at hmem
  simp only [maxBackends] at hmem
  exact retireBackend_triple hsmooth hkeys hids (by omega) (by simp only [maxBackends]; omega)

end Retire

end Phases

end Marlin
