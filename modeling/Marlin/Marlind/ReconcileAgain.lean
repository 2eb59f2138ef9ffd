import Marlin.Marlind.ReconcileRetry
import Marlin.Marlind.VipAllocSettled

/-!
# Reconciling again

A reconcile that nothing hinders brings the maps of any history to its configuration, and
the same reconcile once more changes nothing.
-/

namespace Marlin

open Marlin.Library Marlin.Library.Table

/-! ## What stays of the forwarding maps -/

structure Maps.SameFwd (s t : Maps) : Prop where
  fwdTable : t.fwdTable = s.fwdTable
  backends : t.backends = s.backends

section Frame

variable {S : Type} [LinearOrder S] {score : UInt64 → Nat → S} {e : Env} {keys : BackendKeys}
  {conf : MarlinConf} {start : Maps} {J K : Maps → Prop}

/--
`J` is what holds of `fwd_table` and `backends` until the backends are written, and `K`
what holds from then on.
-/
theorem reconcileApply_frame (hcalm : e.Calm) (hread : start.Readable) (hstart : J start)
    (hJ : ∀ s t, s.SameFwd t → J s → J t) (hK : ∀ s t, s.SameFwd t → K s → K t)
    (hbackends : Triple e J (writeBackends keys (conf.assigned start)) (fun _ _ => True)
      (fun _ => True) fun _ => K)
    (hvips : ∀ vip ∈ (conf.assigned start).vips,
      Only (fun s t => K s → K t) (writeVip score (conf.assigned start) vip))
    (hrelease : Only (fun s t => K s → K t) (releaseStaleVipBlocks
      (vipAlloc (conf.vips.map ConfVip.keys) start.baseline).plan.release))
    (hretire : Triple e K (retireStaleBackends keys (conf.assigned start)) (fun _ _ => True)
      (fun _ => True) fun _ => K) :
    Triple e (fun s => s = start) (reconcileApply score keys conf) (fun _ _ => True)
      (fun _ => True) fun _ => K := by
  refine Triple.bind (M := fun _ s => s = start) ?_ fun _ => ?_
  · exact Triple.consequence (openMaps_triple (G := True) fun _ => hcalm.smooth) (fun _ hs => hs)
      (fun _ _ h => h) (fun _ _ => trivial) fun _ _ hs => hs
  refine Triple.bind (M := fun baseline s => baseline = start.baseline ∧ s = start) ?_
    fun baseline => Triple.assume ?_
  · exact Triple.consequence (baseline_triple (G := True) (fun _ => hcalm.smooth) fun _ => hread)
      (fun _ hs => hs) (fun _ _ h => h) (fun _ _ => trivial)
      fun _ _ hs => ⟨hs.1 hcalm.smooth.honest, hs.2⟩
  rintro rfl
  refine Triple.bind (M := fun result s =>
    result = vipAlloc (conf.vips.map ConfVip.keys) start.baseline ∧ s = start) ?_
    fun result => Triple.assume ?_
  · exact Triple.consequence (allocateVipNums_triple (G := False) False.elim False.elim)
      (fun _ hs => hs) (fun _ _ h => h) (fun _ _ => trivial) fun _ _ hs => ⟨hs.1.1, hs.2⟩
  rintro rfl
  have haside : ∀ {I : Maps → Prop}, (∀ s t, s.SameFwd t → I s → I t) → ∀ s t,
      s.SameTables t → I s → I t :=
    fun hI s t hsame => hI s t ⟨hsame.fwdTable, hsame.backends⟩
  refine Triple.bind (Triple.pre (Only.keeps (I := J) (removeStaleVipKeys_only _
    fun _ s => hJ s _ ⟨rfl, rfl⟩)) fun s hs => hs ▸ hstart) fun _ => ?_
  refine Triple.bind (Only.keeps (I := J) readOldAclLists_only) fun old => ?_
  refine Triple.bind (Only.keeps (I := J) (writeConfig_only fun _ s => hJ s _ ⟨rfl, rfl⟩))
    fun _ => ?_
  refine Triple.bind (M := fun _ => K) ?_ fun _ => ?_
  · refine Triple.bind (Only.keeps (I := J) (applyAside_only (haside hJ))) fun want => ?_
    refine Triple.bind hbackends fun _ => ?_
    refine Triple.bind (Only.keeps (I := K) (.forEach (fun i => ?_) _)) fun _ => ?_
    · have hassigned : conf.withNums (vipAlloc (conf.vips.map ConfVip.keys) start.baseline).num =
          conf.assigned start := rfl
      rw [hassigned]
      cases hvip : (conf.assigned start).vips[i]? with
      | none => exact .pure _
      | some vip => exact hvips vip (List.mem_of_getElem? hvip)
    refine Triple.bind (Only.keeps (I := K) hrelease) fun _ => ?_
    refine Triple.bind hretire fun _ => ?_
    exact Only.keeps (I := K) (removeStaleTxPorts_only want fun _ s => hK s _ ⟨rfl, rfl⟩)
  refine Triple.bind (Only.keeps (I := K) (writeConfig_only fun _ s => hK s _ ⟨rfl, rfl⟩))
    fun _ => ?_
  exact Triple.pure fun _ hs => hs

end Frame

theorem Maps.SameFwd.trans {s t u : Maps} (hst : s.SameFwd t) (htu : t.SameFwd u) :
    s.SameFwd u :=
  ⟨htu.fwdTable.trans hst.fwdTable, htu.backends.trans hst.backends⟩

/-! ## The backends -/

def Maps.BackendsOn (ifs : Interfaces) (backends : List ConfBackend) (mp : Maps) : Prop :=
  ∀ b ∈ backends, mp.backends b.id = backendValue b (ifs.nametoindex b.egress)

section Backends

variable {e : Env} {ifs : Interfaces} {conf : MarlinConf} {K : Maps → Prop}

theorem writeBackends_values (hifs : e.Answers ifs) (hconf : conf.Accepted)
    (hfull : e.OnlyFull conf) {J : List ConfBackend → Maps → Prop}
    (hJ : ∀ done b rest, conf.backends = done ++ b :: rest → ∀ s, J done s →
      J (done ++ [b]) { s with
        backends := Function.update s.backends b.id (backendValue b (ifs.nametoindex b.egress)) }) :
    Triple e (J []) (writeBackends .layout conf) (fun _ _ => True) (fun _ => True)
      fun _ => J conf.backends := by
  refine Triple.forEach conf.backends fun done b rest hbackends => ?_
  have hb : b ∈ conf.backends := by simp [hbackends]
  have hkey : BackendKeys.layout.ofConf b = b.id := by
    have hlt := hfull.ofConf b hb
    exact (BackendKeys.layout_sound.ofConf b (hconf.checked.id_lt b hb)).resolve_right (by omega)
  refine Triple.bind (M := fun ifindex s =>
    backendValue b ifindex = backendValue b (ifs.nametoindex b.egress) ∧ J done s) ?_
    fun ifindex => Triple.assume fun hvalue => ?_
  · refine Triple.ite (fun hegress => ?_) fun hegress => ?_
    · exact Triple.look fun n s hs => ⟨by rw [hifs.nametoindex], hs⟩
    · exact Triple.pure fun s hs => ⟨by simp [backendValue, hegress], hs⟩
  rw [hkey, hvalue]
  refine Triple.bind (M := fun answer s => answer = none ∧ J (done ++ [b]) s)
    (Triple.put (fun _ _ _ _ _ => trivial) fun n s hs => ?_) fun answer => Triple.assume ?_
  · have hlt := hconf.checked.id_lt b hb
    simpa [hfull.calm.writes n, hlt] using hJ done b rest hbackends s hs
  · rintro rfl
    exact Triple.pure fun s hs => hs

theorem retireStaleBackends_keeps {keys : BackendKeys} (hkeys : keys.Sound)
    (hK : ∀ id, (∀ b ∈ conf.backends, b.id ≠ id) → ∀ s, K s →
      K { s with backends := Function.update s.backends id 0 }) :
    Triple e K (retireStaleBackends keys conf) (fun _ _ => True) (fun _ => True)
      fun _ => K := by
  refine Triple.forEach (J := fun _ => K) _ fun done id rest hids => ?_
  have hmem : id ∈ List.range' 1 (maxBackends - 1) := by simp [hids]
  refine Only.keeps (retireBackend_only fun hunwanted stack hlt s hs => ?_)
  rw [List.mem_range'_1] at hmem
  have hid : id < maxBackends := by
    simp only [maxBackends] at *
    omega
  rw [(hkeys.ofId stack id hid).resolve_right (by omega)]
  refine hK id (fun b hb heq => ?_) s hs
  rw [backendIdWanted_iff.mpr ⟨b, hb, heq⟩] at hunwanted
  cases hunwanted

theorem retireStaleBackends_still {keys : BackendKeys} {start : Maps} (hfaithful : Faithful e keys)
    (hretired : Retired conf (List.range' 1 (maxBackends - 1)) start) :
    Triple e start.SameFwd (retireStaleBackends keys conf) (fun _ _ => True) (fun _ => True)
      fun _ => start.SameFwd := by
  refine Triple.forEach (J := fun _ => start.SameFwd) _ fun done id rest hids => ?_
  have hmem : id ∈ List.range' 1 (maxBackends - 1) := by simp [hids]
  have hid : id < maxBackends := by
    rw [List.mem_range'_1] at hmem
    simp only [maxBackends] at *
    omega
  refine Triple.bind (M := fun key s => key = id ∧ start.SameFwd s)
    (Triple.look fun n s hs => ⟨hfaithful.ofId n id hid, hs⟩) fun key => Triple.assume ?_
  rintro rfl
  refine Triple.bind (M := fun answer s => answer = .ok (start.backends key) ∧ start.SameFwd s)
    (Triple.look fun n s hs => ?_) fun answer => Triple.assume ?_
  · simp [hfaithful.reads n, hid, hs.backends, hs]
  · rintro rfl
    refine Triple.ite (fun _ => Triple.pure fun _ hs => hs) fun hown => ?_
    refine Triple.ite (fun _ => Triple.pure fun _ hs => hs) fun hunwanted => ?_
    refine absurd (not_not.mp hown) (hretired key hmem fun b hb heq => ?_)
    exact hunwanted (backendIdWanted_iff.mpr ⟨b, hb, heq⟩)

end Backends

/-! ## The first run -/

theorem Env.OnlyFull.faithful {e : Env} {conf : MarlinConf} (h : e.OnlyFull conf) :
    Faithful e .layout where
  reads := h.calm.reads _
  ofId n id hid := by
    have hlt := h.ofId n id hid
    exact (BackendKeys.layout_sound.ofId (e.stack n) id hid).resolve_right (by omega)

section Runs

variable {S : Type} [LinearOrder S] {score : UInt64 → Nat → S} {e : Env} {ifs : Interfaces}
  {conf : MarlinConf} {start : Maps}

variable (score) in
theorem reconcileApply_backendsOn (hifs : e.Answers ifs) (hconf : conf.Accepted)
    (hfull : e.OnlyFull conf) (hstart : start.Bounded) :
    Triple e (fun s => s = start) (reconcileApply score .layout conf) (fun _ _ => True)
      (fun _ => True) fun _ => Maps.BackendsOn ifs conf.backends := by
  have hsame : ∀ s t : Maps, t.backends = s.backends → s.BackendsOn ifs conf.backends →
      t.BackendsOn ifs conf.backends := by
    intro s t hst hs b hb
    rw [hst]
    exact hs b hb
  refine reconcileApply_frame (J := fun _ => True) hfull.calm hstart.vips.readable trivial
    (fun _ _ _ _ => trivial) (fun s t hst => hsame s t hst.backends) ?_ (fun vip _ => ?_) ?_ ?_
  · refine Triple.pre (writeBackends_values (J := fun done s => s.BackendsOn ifs done) hifs hconf
      hfull fun done b rest hbackends s hs b' hb' => ?_) fun _ _ => by simp [Maps.BackendsOn]
    by_cases heq : b'.id = b.id
    · have hmem : b' ∈ conf.backends := by
        rw [hbackends]
        rcases List.mem_append.mp hb' with h | h
        · simp [h]
        · simp [List.mem_singleton.mp h]
      have hb : b ∈ conf.backends := by simp [hbackends]
      cases List.inj_on_of_nodup_map hconf.checked.ids_nodup hmem hb heq
      simp
    · have hdone : b' ∈ done := by
        rcases List.mem_append.mp hb' with h | h
        · exact h
        · exact absurd (congrArg _ (List.mem_singleton.mp h)) heq
      simpa [Function.update_of_ne heq] using hs b' hdone
  · exact writeVip_only (fun _ _ s => hsame s _ rfl) fun _ _ s _ _ => hsame s _ rfl
  · exact releaseStaleVipBlocks_only _ fun _ _ _ _ s => hsame s _ rfl
  · refine retireStaleBackends_keeps BackendKeys.layout_sound fun id hno s hs b hb => ?_
    simpa [Function.update_of_ne (hno b hb)] using hs b hb

/-! ## The second run -/

theorem MarlinConf.withNums_congr {num num' : Nat → Nat}
    (h : ∀ i < conf.vips.length, num i = num' i) : conf.withNums num = conf.withNums num' := by
  have hvips : conf.vips.mapIdx (fun i vip => vip.withNum (num i)) =
      conf.vips.mapIdx fun i vip => vip.withNum (num' i) := by
    refine List.ext_getElem? fun i => ?_
    rw [List.getElem?_mapIdx, List.getElem?_mapIdx]
    cases hvip : conf.vips[i]? with
    | none => rfl
    | some vip =>
        rw [Option.map_some, Option.map_some, h i (List.getElem?_eq_some_iff.mp hvip).1]
  rw [MarlinConf.withNums, MarlinConf.withNums, hvips]

variable {num : Nat → Nat}

theorem Carries.settled (h : Carries score ifs conf num start) (hconf : conf.Accepted) :
    VipAllocSettled (conf.vips.map ConfVip.keys) start.baseline num := by
  have howner : ∀ {i : Nat} {vip : ConfVip} {key : VipKey}, conf.vips[i]? = some vip →
      key ∈ vip.keys → vipAllocOwner (conf.vips.map ConfVip.keys) key = some i :=
    vipAllocOwner_of_mem hconf.keysDistinct
  refine ⟨hconf.fair (h.bounded hconf).vips, ?_, ?_, ?_⟩
  · intro b hb
    obtain ⟨vipMeta, hlookup, hnum⟩ := Maps.mem_baseline.mp hb
    obtain ⟨i, vip, hi, hkey, rfl⟩ := (h.lookup_iff hconf).mp hlookup
    refine ⟨i, ?_, howner hi hkey, hnum.symm⟩
    simpa using (List.getElem?_eq_some_iff.mp hi).1
  · intro i hi
    rw [List.length_map] at hi
    have hvip := List.getElem?_eq_getElem hi
    obtain ⟨key, hkey⟩ := List.exists_mem_of_ne_nil _
      (hconf.keys_nonempty _ (List.getElem_mem hi))
    have hlookup := (h.lookup_iff hconf).mpr ⟨i, _, hvip, hkey, rfl⟩
    exact ⟨⟨key, num i⟩, Maps.mem_baseline.mpr ⟨_, hlookup, rfl⟩, howner hvip hkey⟩
  · intro i hi j hj
    rw [List.length_map] at hi hj
    exact h.num_inj i hi j hj

theorem Carries.assigned (h : Carries score ifs conf num start) (hconf : conf.Accepted) :
    conf.assigned start = conf.withNums num ∧
      (vipAlloc (conf.vips.map ConfVip.keys) start.baseline).plan.release = [] := by
  obtain ⟨hnum, hrelease⟩ := vipAlloc_settled (h.settled hconf)
  rw [List.length_map] at hnum
  exact ⟨MarlinConf.withNums_congr hnum, hrelease⟩

theorem Carries.room (h : Carries score ifs conf num start) (hconf : conf.Accepted) :
    ifs.Room conf start := by
  have hcard : ∀ {α : Type} [DecidableEq α] {xs : List α} {n : Nat}, xs.length ≤ n →
      (xs.toFinset ∪ xs.toFinset).card ≤ n := by
    intro α _ xs n hlen
    rw [Finset.union_self]
    exact Nat.le_trans (List.toFinset_card_le xs) hlen
  obtain ⟨hallowV4, hblockV4, hallowV6, hblockV6⟩ := hconf.acl_length
  refine h.room_iff.mpr ⟨hcard ?_, hcard ?_, hcard ?_, hcard ?_, hcard ?_⟩
  · simpa [Interfaces.txPorts] using hconf.txPorts_length
  · simpa using hallowV4
  · simpa using hblockV4
  · simpa using hallowV6
  · simpa using hblockV6

theorem reconcileApply_sameFwd {value : MarlinConfig}
    (h : Carries score ifs conf num { start with config := value }) (hconf : conf.Accepted)
    (hbackends : start.BackendsOn ifs conf.backends)
    (hretired : Retired conf (List.range' 1 (maxBackends - 1)) start) (hifs : e.Answers ifs)
    (hfull : e.OnlyFull conf) :
    Triple e (fun s => s = start) (reconcileApply score .layout conf) (fun _ _ => True)
      (fun _ => True) fun _ => start.SameFwd := by
  obtain ⟨hassigned, hrelease⟩ := h.assigned hconf
  change conf.assigned start = conf.withNums num at hassigned
  change (vipAlloc (conf.vips.map ConfVip.keys) start.baseline).plan.release = [] at hrelease
  have hreadable : start.Readable :=
    ⟨(h.bounded hconf).vips.readable.count, (h.bounded hconf).vips.readable.num_lt⟩
  have htrans : ∀ s t : Maps, s.SameFwd t → start.SameFwd s → start.SameFwd t :=
    fun s t hst hs => hs.trans hst
  refine reconcileApply_frame hfull.calm hreadable ⟨rfl, rfl⟩ htrans htrans
    ?_ (fun placed hplaced => ?_) ?_ ?_
  · refine writeBackends_values (J := fun _ => start.SameFwd) hifs hconf hfull
      fun done b rest hsplit s hs => ⟨hs.fwdTable, ?_⟩
    have hb : b ∈ conf.backends := by simp [hsplit]
    change Function.update s.backends b.id _ = start.backends
    rw [hs.backends, ← hbackends b hb, Function.update_eq_self]
  · rw [hassigned] at hplaced ⊢
    obtain ⟨i, vip, hi, rfl⟩ := MarlinConf.mem_withNums.mp hplaced
    have hnum := h.num_lt i (List.getElem?_eq_some_iff.mp hi).1
    refine writeVip_only (fun kv hkv s hs => ?_) fun _ _ s _ _ => htrans s _ ⟨rfl, rfl⟩
    change kv ∈ fwdBlock (num i) _ at hkv
    rw [fwdBlock_eq hnum] at hkv
    obtain ⟨row, hrow, rfl⟩ := List.mem_map.mp hkv
    refine ⟨?_, hs.backends⟩
    change Function.update s.fwdTable (fwdIndex (num i) row) _ = start.fwdTable
    rw [hs.fwdTable, genBlock_withNums, genBlock, ← h.rows i vip hi row (List.mem_range.mp hrow),
      Maps.fwdRow, Function.update_eq_self]
  · rw [hrelease]
    exact .pure _
  · exact retireStaleBackends_still hfull.faithful hretired

end Runs

structure Maps.SameContent (s t : Maps) : Prop where
  config : t.config = s.config
  backends : t.backends = s.backends
  fwdTable : t.fwdTable = s.fwdTable
  vipMap : ∀ key, t.vipMap.lookup key = s.vipMap.lookup key
  txPorts : ∀ key, t.txPorts.lookup key = s.txPorts.lookup key
  allowV4 : ∀ key, t.aclAllowV4.lookup key = s.aclAllowV4.lookup key
  blockV4 : ∀ key, t.aclBlockV4.lookup key = s.aclBlockV4.lookup key
  allowV6 : ∀ key, t.aclAllowV6.lookup key = s.aclAllowV6.lookup key
  blockV6 : ∀ key, t.aclBlockV6.lookup key = s.aclBlockV6.lookup key

section

variable {S : Type} [LinearOrder S] {score : UInt64 → Nat → S} {ifs : Interfaces}
  {conf : MarlinConf} {num : Nat → Nat} {s t : Maps}

theorem Carries.sameContent (hs : Carries score ifs conf num s) (ht : Carries score ifs conf num t)
    (hfwd : s.SameFwd t) : s.SameContent t where
  config := ht.config.trans hs.config.symm
  backends := hfwd.backends
  fwdTable := hfwd.fwdTable
  vipMap key := (ht.vipMap key).trans (hs.vipMap key).symm
  txPorts key := (ht.txPorts key).trans (hs.txPorts key).symm
  allowV4 key := (ht.allowV4 key).trans (hs.allowV4 key).symm
  blockV4 key := (ht.blockV4 key).trans (hs.blockV4 key).symm
  allowV6 key := (ht.allowV6 key).trans (hs.allowV6 key).symm
  blockV6 key := (ht.blockV6 key).trans (hs.blockV6 key).symm

theorem Carries.congr {num' : Nat → Nat} (h : Carries score ifs conf num s)
    (heq : ∀ i < conf.vips.length, num i = num' i) : Carries score ifs conf num' s where
  num_lt i hi := heq i hi ▸ h.num_lt i hi
  num_inj i hi j hj hnum := h.num_inj i hi j hj (by rw [heq i hi, heq j hj, hnum])
  vipMap := by
    rw [MarlinConf.vipPairs, ← MarlinConf.withNums_congr heq]
    exact h.vipMap
  rows i vip hi := heq i (List.getElem?_eq_some_iff.mp hi).1 ▸ h.rows i vip hi
  config := h.config
  txPorts := h.txPorts
  allowV4 := h.allowV4
  blockV4 := h.blockV4
  allowV6 := h.allowV6
  blockV6 := h.blockV6

end

/--
Whatever a history of attempts has left behind, a reconcile that nothing hinders returns and
leaves maps that depend on the configuration and the interfaces only, but for the numbers of
the blocks; and doing it again changes nothing.
-/
theorem reconcileApply_converges {S : Type} [LinearOrder S] (score : UInt64 → Nat → S)
    (history : List Attempt) {conf : MarlinConf} (hconf : conf.Accepted) {ifs : Interfaces}
    {e : Env} (hon : e.On ifs) (hfull : e.OnlyFull conf) (hsuits : ifs.Suits conf)
    (hroom : ifs.Room conf (afterAttempts score .layout Maps.fresh history)) (n : Nat) :
    let first := reconcileApply score .layout conf e n
      (afterAttempts score .layout Maps.fresh history)
    ∃ num, first.result = some (conf.withNums num) ∧
      Carries score ifs conf num first.store ∧
      ∀ (again : Env) (m : Nat), again.On ifs → again.OnlyFull conf →
        (reconcileApply score .layout conf again m first.store).result =
            some (conf.withNums num) ∧
          first.store.SameContent
            (reconcileApply score .layout conf again m first.store).store := by
  intro first
  have hkeys := BackendKeys.layout_sound
  have hstart := afterAttempts_bounded score hkeys history Maps.fresh_bounded
  have hout := hconf.returns score hkeys e n
    (hconf.feasible hon.answers hfull hsuits hstart hroom)
  have hcarries := hconf.carries hon.answers hfull.calm n hstart hout
  have hdone := ((hconf.meets score hkeys e n _).finished _ hout).1 hfull.calm.smooth.honest
  have hbackends := (reconcileApply_backendsOn score hon.answers hconf hfull hstart n _
    rfl).finished _ hout
  refine ⟨_, hout, hcarries, fun again m hon' hfull' => ?_⟩
  have hbounded := hcarries.bounded hconf
  have hout' := hconf.returns score hkeys again m
    (hconf.feasible hon'.answers hfull' hsuits hbounded (hcarries.room hconf))
  have hcarries' := hconf.carries hon'.answers hfull'.calm m hbounded hout'
  obtain ⟨hnum, -⟩ := vipAlloc_settled (hcarries.settled hconf)
  rw [List.length_map] at hnum
  have hfwd := (reconcileApply_sameFwd hcarries hconf hbackends
    (hdone.2.retired hfull.faithful) hon'.answers hfull' m _ rfl).finished _ hout'
  refine ⟨?_, hcarries.sameContent (hcarries'.congr hnum) hfwd⟩
  rw [hout', (hcarries.assigned hconf).1]

namespace Sample

theorem openConf_room (ifs : Interfaces) {start : Maps} (hstart : start.Bounded) :
    ifs.Room openConf start := by
  obtain ⟨hacl, hports, -, -⟩ := openConf_holds
  constructor
  · rw [Interfaces.txPorts, hports]
    exact fits_nil hstart.aside.txPorts
  · rw [hacl]
    exact fits_nil hstart.aside.aclAllowV4
  · rw [hacl]
    exact fits_nil hstart.aside.aclBlockV4
  · rw [hacl]
    exact fits_nil hstart.aside.aclAllowV6
  · rw [hacl]
    exact fits_nil hstart.aside.aclBlockV6

theorem openConf_suits : ifaces.Suits openConf := by
  refine ⟨?_, Or.inr (Or.inr (ifaces_maxFrame _))⟩
  rw [openConf_holds.2.1]
  simp

/-- A first attempt that stops within its first block, then a configuration with a rule. -/
def brokenOff : List Attempt := ⟨faultyEnv 14, openConf, openConf_accepted⟩ :: blocked

end Sample

theorem reconcileApply_converges_open :
    (reconcileApply Sample.score .layout Sample.openConf (Sample.faultyEnv 14) 0
      Maps.fresh).result.isNone = true ∧
    let first := reconcileApply Sample.score .layout Sample.openConf Sample.ifacesEnv 0
      (afterAttempts Sample.score .layout Maps.fresh Sample.brokenOff)
    ∃ num, first.result = some (Sample.openConf.withNums num) ∧
      Carries Sample.score Sample.ifaces Sample.openConf num first.store ∧
      first.store.SameContent (reconcileApply Sample.score .layout Sample.openConf
        Sample.ifacesEnv 0 first.store).store := by
  refine ⟨by decide +kernel, ?_⟩
  intro first
  have hfull := Sample.ifacesEnv_onlyFull Sample.openConf_holds.2.2.1
  have hroom := Sample.openConf_room Sample.ifaces (afterAttempts_bounded Sample.score
    BackendKeys.layout_sound Sample.brokenOff Maps.fresh_bounded)
  obtain ⟨num, hout, hcarries, hagain⟩ := reconcileApply_converges Sample.score Sample.brokenOff
    Sample.openConf_accepted Sample.ifacesEnv_on hfull Sample.openConf_suits hroom 0
  exact ⟨num, hout, hcarries, (hagain Sample.ifacesEnv 0 Sample.ifacesEnv_on hfull).2⟩

end Marlin
