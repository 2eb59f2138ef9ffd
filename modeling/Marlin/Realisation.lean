import Marlin.Bpf.Verdicts
import Marlin.Marlind.ReconcileRuns

/-!
# The datapath realises the configuration

What a configuration means for a packet, said without maps or blocks, and that the
packet path does just that once `reconcile_apply` has returned.
-/

namespace Marlin

open Marlin.Library

/-! ## What a configuration means -/

def PacketTuple.vipKey (tuple : PacketTuple) : VipKey :=
  ⟨tuple.dst, tuple.dport, tuple.proto, tuple.family⟩

/-- Entry `vip` holds the key, or no entry does and `vip` holds it for every port. -/
def MarlinConf.Owns (conf : MarlinConf) (vip : ConfVip) (key : VipKey) : Prop :=
  key ∈ vip.keys ∨ key ∉ conf.keys ∧ { key with port := 0 } ∈ vip.keys

def MarlinConf.namedMember (conf : MarlinConf) (member : ConfMember) : Option FwdGenMember :=
  (findBackend conf member.backendName).map fun backend =>
    { backendId := backend.id
      weight := member.weight
      addr := backend.abi.addr
      vni := backend.abi.vni
      innerMac := backend.abi.innerMac }

def MarlinConf.ownMembers (conf : MarlinConf) (vip : ConfVip) : List FwdGenMember :=
  vip.members.filterMap conf.namedMember

def PacketTuple.hashInput (tuple : PacketTuple) (flags : UInt32) : List UInt8 :=
  if flags &&& vipHash5tuple ≠ 0 then tuple.bytes
  else if flags &&& vipHashPorts ≠ 0 then
    tuple.sport.bytes ++ tuple.dport.bytes ++ [0, 0, 0, 0]
  else tuple.src.bytes

def PacketTuple.row (tuple : PacketTuple) (vip : VipMeta) : Nat :=
  (marlinSiphash (tuple.hashInput vip.flags) vip.hashKey).toNat % tableSize

section Score

variable {S : Type} [LinearOrder S] (score : UInt64 → Nat → S)

def MarlinConf.winner (conf : MarlinConf) (vip : ConfVip) (tuple : PacketTuple) : Nat :=
  fwdGenBlock score vip.tableSeed (conf.ownMembers vip) (tuple.row vip.vipMeta)

/-- The maps hold a checked configuration whose blocks are assigned. -/
structure Realised (conf : MarlinConf) (mp : Maps) : Prop where
  checked : conf.Checked
  canonical : ∀ key ∈ conf.keys, key.Canonical
  nums : ∀ vip ∈ conf.vips, vip.vipMeta.vipNum < maxVips
  applied : Applied score conf mp

theorem reconcileApply_realised {keys : BackendKeys} (hkeys : keys.Sound) {e : Env}
    (hhonest : e.Honest) (loaded : LoadedConf) {start : Maps} {n : Nat} {out : MarlinConf}
    (hout : (reconcileApply score keys loaded.conf e n start).result = some out) :
    out = loaded.conf.assigned start ∧
      Realised score out (reconcileApply score keys loaded.conf e n start).store := by
  have hmeets := reconcileApply_meets score hkeys hhonest loaded.checked.keys_distinct
    loaded.keysCanonical start n
  obtain ⟨rfl, hdone⟩ := hmeets.finished out hout
  refine ⟨rfl, loaded.checked.withNums _, ?_, hdone.nums, hdone.applied⟩
  rw [MarlinConf.assigned_keys]
  exact loaded.keysCanonical

theorem MarlinConf.Accepted.realised {keys : BackendKeys} (hkeys : keys.Sound) {e : Env}
    (hhonest : e.Honest) {conf : MarlinConf} (hconf : conf.Accepted) {start : Maps} {n : Nat}
    {out : MarlinConf} (hout : (reconcileApply score keys conf e n start).result = some out) :
    out = conf.assigned start ∧
      Realised score out (reconcileApply score keys conf e n start).store := by
  obtain ⟨rfl, hdone⟩ := ((hconf.meets score hkeys e n start).finished out hout).1 hhonest
  refine ⟨rfl, hconf.checked.withNums _, ?_, hdone.nums, hdone.applied⟩
  rw [MarlinConf.assigned_keys]
  exact hconf.keysCanonical

end Score

/-! ## VIP resolution -/

theorem marlinLbVipKey_canonical (pkt : MarlinCtx) : (marlinLbVipKey pkt).Canonical := by
  intro hfamily
  have hinet : pkt.tuple.family = afInet := hfamily
  simp [marlinLbVipKey, VipKey.addr4, hinet]

theorem marlinLbVipKey_eq {pkt : MarlinCtx} (h : pkt.tuple.vipKey.Canonical) :
    marlinLbVipKey pkt = pkt.tuple.vipKey := by
  by_cases hfamily : pkt.tuple.family = afInet
  · have hdst : pkt.tuple.dst = ⟨pkt.tuple.dst.w0, 0, 0, 0⟩ := h hfamily
    simp only [marlinLbVipKey, if_pos hfamily, PacketTuple.vipKey]
    rw [← hdst]
  · simp [marlinLbVipKey, PacketTuple.vipKey, hfamily]

theorem MarlinConf.Owns.canonical {conf : MarlinConf} {vip : ConfVip} {key : VipKey}
    (hcanon : ∀ key ∈ conf.keys, key.Canonical) (hvip : vip ∈ conf.vips)
    (h : conf.Owns vip key) : key.Canonical := by
  have hmem : ∀ k ∈ vip.keys, k.Canonical := fun k hk =>
    hcanon k (List.mem_flatMap.mpr ⟨vip, hvip, hk⟩)
  rcases h with hkey | ⟨-, hany⟩
  · exact hmem key hkey
  · exact hmem { key with port := 0 } hany

section Realised

variable {S : Type} [LinearOrder S] {score : UInt64 → Nat → S} {conf : MarlinConf} {mp : Maps}

theorem Realised.lookup_eq_some_iff (h : Realised score conf mp) {key : VipKey}
    (hkey : key.Canonical) {vipMeta : VipMeta} :
    mp.vipMap.lookup key = some vipMeta ↔
      ∃ vip ∈ conf.vips, key ∈ vip.keys ∧ vipMeta = vip.vipMeta := by
  constructor
  · intro hlookup
    obtain ⟨vip, hvip, hown, heq, -⟩ := h.applied.settled key vipMeta hkey hlookup
    exact ⟨vip, hvip, hown, heq⟩
  · rintro ⟨vip, hvip, hown, rfl⟩
    exact h.applied.published vip hvip key hown

theorem Realised.lookup_eq_none (h : Realised score conf mp) {key : VipKey}
    (hkey : key.Canonical) (hnot : key ∉ conf.keys) : mp.vipMap.lookup key = none := by
  cases hlookup : mp.vipMap.lookup key with
  | none => rfl
  | some vipMeta =>
      obtain ⟨vip, hvip, hown, -⟩ := (h.lookup_eq_some_iff hkey).mp hlookup
      exact absurd (List.mem_flatMap.mpr ⟨vip, hvip, hown⟩) hnot

/-- `marlin_lb_select_vip` finds the entry that owns the packet's key, and only that. -/
theorem Realised.selectVip_iff (h : Realised score conf mp) {pkt : MarlinCtx}
    {vipMeta : VipMeta} :
    marlinLbSelectVip mp pkt = some vipMeta ↔
      ∃ vip ∈ conf.vips, conf.Owns vip (marlinLbVipKey pkt) ∧ vipMeta = vip.vipMeta := by
  have hkey := marlinLbVipKey_canonical pkt
  have hany : ({ marlinLbVipKey pkt with port := 0 } : VipKey).Canonical := hkey
  cases hlookup : mp.vipMap.lookup (marlinLbVipKey pkt) with
  | some hit =>
      obtain ⟨vip, hvip, hown, rfl⟩ := (h.lookup_eq_some_iff hkey).mp hlookup
      have hmem : marlinLbVipKey pkt ∈ conf.keys := List.mem_flatMap.mpr ⟨vip, hvip, hown⟩
      simp only [marlinLbSelectVip, hlookup, Option.some.injEq]
      constructor
      · rintro rfl
        exact ⟨vip, hvip, Or.inl hown, rfl⟩
      · rintro ⟨other, hother, hown' | ⟨hnot, -⟩, rfl⟩
        · rw [MarlinConf.owner_eq h.checked.keys_distinct hvip hother hown hown']
        · exact absurd hmem hnot
  | none =>
      have hnot : marlinLbVipKey pkt ∉ conf.keys := by
        intro hmem
        obtain ⟨vip, hvip, hown⟩ := List.mem_flatMap.mp hmem
        rw [h.applied.published vip hvip _ hown] at hlookup
        cases hlookup
      simp only [marlinLbSelectVip, hlookup]
      rw [h.lookup_eq_some_iff hany]
      constructor
      · rintro ⟨vip, hvip, hown, rfl⟩
        exact ⟨vip, hvip, Or.inr ⟨hnot, hown⟩, rfl⟩
      · rintro ⟨vip, hvip, hown | ⟨-, hown⟩, rfl⟩
        · exact absurd (List.mem_flatMap.mpr ⟨vip, hvip, hown⟩) hnot
        · exact ⟨vip, hvip, hown, rfl⟩

/-! ## Selection -/

theorem MarlinConf.Checked.genMembers_eq (h : conf.Checked) {vip : ConfVip}
    (hvip : vip ∈ conf.vips) : genMembers conf vip = conf.ownMembers vip := by
  have hmember : ∀ m ∈ vip.members, conf.namedMember m = some (genMember conf m) := by
    intro m hm
    obtain ⟨b, hfind, hid⟩ := h.resolved vip hvip m hm
    have hgen := MarlinConf.find_id h.ids_nodup (List.mem_of_find?_eq_some hfind)
    rw [hid] at hgen
    rw [MarlinConf.namedMember, hfind, genMember, hgen]
    rfl
  rw [genMembers, MarlinConf.ownMembers, List.filterMap_congr hmember,
    List.filterMap_eq_map']

variable (score) in
theorem MarlinConf.Checked.genBlock_eq (h : conf.Checked) {vip : ConfVip}
    (hvip : vip ∈ conf.vips) (tuple : PacketTuple) :
    genBlock score conf vip (tuple.row vip.vipMeta) = conf.winner score vip tuple := by
  rw [genBlock, h.genMembers_eq hvip]
  rfl

variable (score) in
theorem MarlinConf.Checked.winner_mem (h : conf.Checked) {vip : ConfVip} (hvip : vip ∈ conf.vips)
    (tuple : PacketTuple) (hne : vip.members ≠ []) :
    ∃ m ∈ vip.members, ∃ b ∈ conf.backends, findBackend conf m.backendName = some b ∧
      conf.winner score vip tuple = b.id := by
  have hown : conf.ownMembers vip ≠ [] := by
    rw [← h.genMembers_eq hvip]
    simpa [genMembers] using hne
  obtain ⟨member, hmember, hwinner⟩ :=
    fwdGenBlock_mem score vip.tableSeed hown (tuple.row vip.vipMeta)
  obtain ⟨m, hm, hnamed⟩ := List.mem_filterMap.mp hmember
  obtain ⟨b, hfind, rfl⟩ := Option.map_eq_some_iff.mp hnamed
  exact ⟨m, hm, b, List.mem_of_find?_eq_some hfind, hfind, hwinner⟩

variable (score) in
theorem MarlinConf.winner_nil {vip : ConfVip} (tuple : PacketTuple) (hnil : vip.members = []) :
    conf.winner score vip tuple = marlinNoBackend := by
  rw [MarlinConf.winner, MarlinConf.ownMembers, hnil]
  rfl

theorem marlinLbFkey_eq {pkt : MarlinCtx} {vip : VipMeta} (hnum : vip.vipNum < maxVips) :
    marlinLbFkey pkt vip = fwdIndex vip.vipNum (pkt.tuple.row vip) := by
  have hrow : pkt.tuple.row vip < tableSize := Nat.mod_lt _ tableSize_pos
  have hlt := fwdIndex_lt hnum hrow
  have hmix : marlinLbMix pkt vip = marlinSiphash (pkt.tuple.hashInput vip.flags) vip.hashKey := by
    simp only [marlinLbMix, PacketTuple.hashInput]
    split
    · rfl
    · split <;> rfl
  rw [marlinLbFkey, hmix]
  apply Nat.mod_eq_of_lt
  exact Nat.lt_trans hlt (by decide)

theorem Realised.selectByHash (h : Realised score conf mp) {vip : ConfVip}
    (hvip : vip ∈ conf.vips) (pkt : MarlinCtx) :
    marlinLbSelectBackendByHash mp pkt vip.vipMeta =
      if vip.members = [] then none
      else some (mp.backends (conf.winner score vip pkt.tuple)) := by
  have hnum := h.nums vip hvip
  have hrow : pkt.tuple.row vip.vipMeta < tableSize := Nat.mod_lt _ tableSize_pos
  have hlt : fwdIndex vip.vipMeta.vipNum (pkt.tuple.row vip.vipMeta) < maxFwdEntries :=
    fwdIndex_lt hnum hrow
  have hbid : mp.fwdTable (fwdIndex vip.vipMeta.vipNum (pkt.tuple.row vip.vipMeta)) =
      conf.winner score vip pkt.tuple :=
    (h.applied.rows vip hvip _ hrow).trans (h.checked.genBlock_eq score hvip pkt.tuple)
  rw [marlinLbSelectBackendByHash, if_neg (Nat.not_le.mpr hnum), marlinLbFkey_eq hnum]
  simp only [ge_iff_le, Nat.not_le.mpr hlt, if_false, hbid]
  by_cases hnil : vip.members = []
  · rw [if_pos hnil, MarlinConf.winner_nil score pkt.tuple hnil]
    rfl
  · obtain ⟨m, -, b, hb, -, hwinner⟩ := h.checked.winner_mem score hvip pkt.tuple hnil
    rw [if_neg hnil, hwinner, if_neg, Maps.backendAt, if_pos (h.checked.id_lt b hb)]
    rw [not_or]
    exact ⟨h.checked.id_ne_zero b hb, Nat.not_le.mpr (h.checked.id_lt b hb)⟩

end Realised

/-! ## Forwarding -/

def MarlinRet.ofTables : MarlinRet → Bool
  | .dropNoBackend | .dropBackendDown | .dropMapBounds => true
  | _ => false

theorem MarlinRet.ofForwarding_ofTables {rc : MarlinRet} (h : rc.ofForwarding = true) :
    rc.ofTables = false := by
  cases rc <;> first | rfl | cases h

theorem MarlinRet.ofRatelimit_ofTables {rc : MarlinRet} (h : rc.ofRatelimit = true) :
    rc.ofTables = false := by
  cases rc <;> first | rfl | cases h

theorem marlinLbForward_ofTables (host : Host) (mp : Maps) (vip : VipMeta) {x : Xdp}
    (hmode : encapMode x.pkt.backend.flags ∈ confModes) :
    (marlinLbForward host mp vip x).1.ofTables = false := by
  rcases marlinLbForward_ofForwarding host mp vip x with hrc | ⟨-, hother⟩
  · exact MarlinRet.ofForwarding_ofTables hrc
  · exact absurd hmode hother

/-! ## Packets that are not steered -/

def QuicSteered (host : Host) (mp : Maps) (vip : VipMeta) (x : Xdp) : Prop :=
  vip.flags &&& vipQuic ≠ 0 ∧ x.pkt.flags &&& marlinCtxFQuic ≠ 0 ∧
    (marlinLbSelectBackendQuic host mp vip x).1 ≠ none

theorem marlinLbQuicDecode_pkt (host : Host) (vip : VipMeta) (x : Xdp) :
    (marlinLbQuicDecode host vip x).2.pkt = x.pkt := by
  simp only [marlinLbQuicDecode]
  repeat' split
  all_goals rfl

theorem marlinLbSelectBackendQuic_pkt (host : Host) (mp : Maps) (vip : VipMeta) (x : Xdp) :
    (marlinLbSelectBackendQuic host mp vip x).2.pkt = x.pkt := by
  have hdecode := marlinLbQuicDecode_pkt host vip x
  simp only [marlinLbSelectBackendQuic]
  repeat' split
  all_goals exact hdecode

theorem marlinLbSelectBackend_hash {host : Host} {mp : Maps} {vip : VipMeta} {x : Xdp}
    (h : ¬QuicSteered host mp vip x) :
    (marlinLbSelectBackend host mp vip x).1 = marlinLbSelectBackendByHash mp x.pkt vip := by
  have hpkt := marlinLbSelectBackendQuic_pkt host mp vip x
  simp only [marlinLbSelectBackend]
  split
  · next hquic =>
    have hnone : (marlinLbSelectBackendQuic host mp vip x).1 = none := by
      by_contra hsome
      exact h ⟨hquic.1, hquic.2, hsome⟩
    split
    · next hsome =>
      rw [hsome] at hnone
      cases hnone
    · next hfell =>
      rw [hfell] at hpkt
      rw [← hpkt]
  · rfl

/-! ## Admission -/

theorem marlinLbAdmit_ofTables (host : Host) {vip : VipMeta} (hnum : vip.vipNum < maxVips)
    (x : Xdp) : (marlinLbAdmit host (some vip) x).1.ofTables = false := by
  have hlimit := fun counters buckets =>
    MarlinRet.ofRatelimit_ofTables (marlinRatelimit_ofRatelimit host x.pkt counters buckets)
  simp only [marlinLbAdmit, marlinLbFilter, marlinLbAclEnforce, ge_iff_le,
    Nat.not_le.mpr hnum, if_false]
  repeat' split
  all_goals first | rfl | exact hlimit _ _

theorem marlinLbAdmit_pkt (host : Host) (vip : VipMeta) (x : Xdp) :
    (marlinLbAdmit host (some vip) x).2.pkt = x.pkt := by
  simp only [marlinLbAdmit, marlinLbFilter]
  repeat' split
  all_goals rfl

def Xdp.admitted (x : Xdp) (host : Host) (mp : Maps) (vip : VipMeta) : MarlinRet × Xdp :=
  marlinLbAdmit host (some vip)
    { x with pkt := { x.pkt with aclVerdict := marlinAclCheck mp x.pkt } }

theorem marlinLbProcess_eq (host : Host) {mp : Maps} {x : Xdp} {vip : VipMeta}
    (hvip : marlinLbSelectVip mp x.pkt = some vip) :
    marlinLbProcess host mp x =
      if (x.admitted host mp vip).1 ≠ .ok then x.admitted host mp vip
      else marlinLbProcessPacket host mp vip (x.admitted host mp vip).2 := by
  have hvip' : marlinLbSelectVip mp { x.pkt with aclVerdict := marlinAclCheck mp x.pkt } =
      some vip := hvip
  simp only [marlinLbProcess, hvip', Xdp.admitted]
  rfl

/-! ## The whole path -/

section Process

variable {S : Type} [LinearOrder S] {score : UInt64 → Nat → S} {conf : MarlinConf} {mp : Maps}
  {host : Host} {vip : ConfVip} {x : Xdp}

theorem Realised.slot (h : Realised score conf mp) {b : ConfBackend} (hb : b ∈ conf.backends) :
    ∃ ifindex, mp.backends b.id = backendValue b ifindex :=
  h.applied.filled h.checked.idsValid b hb

theorem Realised.processPacket (h : Realised score conf mp)
    (hmodes : ∀ b ∈ conf.backends, encapMode b.abi.flags ∈ confModes)
    (hvip : vip ∈ conf.vips) (hquic : ¬QuicSteered host mp vip.vipMeta x) :
    (marlinLbProcessPacket host mp vip.vipMeta x).1.ofTables = false ∨
      ((marlinLbProcessPacket host mp vip.vipMeta x).1 = .dropNoBackend ∧ vip.members = []) ∨
      ((marlinLbProcessPacket host mp vip.vipMeta x).1 = .dropBackendDown ∧
        ∃ b ∈ conf.backends, conf.winner score vip x.pkt.tuple = b.id ∧
          b.abi.flags &&& marlinBeFState = 0) := by
  have hselect := marlinLbSelectBackend_hash hquic
  rw [h.selectByHash hvip] at hselect
  simp only [marlinLbProcessPacket]
  by_cases hfrag : marlinLbCheckFrag x.pkt vip.vipMeta = .ok
  · rw [if_neg (not_not.mpr hfrag)]
    by_cases hnil : vip.members = []
    · rw [if_pos hnil] at hselect
      refine Or.inr (Or.inl ⟨?_, hnil⟩)
      simp only [hselect, marlinLbLoadBackend]
      rfl
    · obtain ⟨m, -, b, hb, -, hwinner⟩ := h.checked.winner_mem score hvip x.pkt.tuple hnil
      obtain ⟨ifindex, hvalue⟩ := h.slot hb
      rw [if_neg hnil, hwinner, hvalue] at hselect
      by_cases hdown : b.abi.flags &&& marlinBeFState = 0
      · refine Or.inr (Or.inr ⟨?_, b, hb, hwinner, hdown⟩)
        have hdown' : (backendValue b ifindex).flags &&& marlinBeFState = 0 := hdown
        simp only [hselect, marlinLbLoadBackend, if_pos hdown']
        rfl
      · have hup : (backendValue b ifindex).flags &&& marlinBeFState ≠ 0 := hdown
        simp only [hselect, marlinLbLoadBackend, if_neg hup]
        exact Or.inl (marlinLbForward_ofTables host mp vip.vipMeta (hmodes b hb))
  · rw [if_pos hfrag]
    left
    simp only [marlinLbCheckFrag]
    repeat' split
    all_goals rfl

end Process

section

variable {S : Type} [LinearOrder S] (score : UInt64 → Nat → S)

/-- What the configuration asks of the datapath for a packet of entry `vip`. -/
structure Served (conf : MarlinConf) (vip : ConfVip) (host : Host) (mp : Maps) (vmeta : VipMeta)
    (x : Xdp) : Prop where
  /-- The backend of an admitted packet is the winner of its row. -/
  chosen : (x.admitted host mp vmeta).1 = .ok →
    marlinLbCheckFrag (x.admitted host mp vmeta).2.pkt vmeta = .ok →
    (vip.members = [] →
      (marlinLbSelectBackend host mp vmeta (x.admitted host mp vmeta).2).1 = none) ∧
    (vip.members ≠ [] →
      ∃ m ∈ vip.members, ∃ b, findBackend conf m.backendName = some b ∧
        conf.winner score vip x.pkt.tuple = b.id ∧
        ∃ ifindex, (marlinLbSelectBackend host mp vmeta (x.admitted host mp vmeta).2).1 =
          some (backendValue b ifindex))
  noBackend : (marlinLbProcess host mp x).1 = .dropNoBackend → vip.members = []
  backendDown : (marlinLbProcess host mp x).1 = .dropBackendDown →
    ∃ b ∈ conf.backends, conf.winner score vip x.pkt.tuple = b.id ∧
      b.abi.flags &&& marlinBeFState = 0
  mapBounds : (marlinLbProcess host mp x).1 ≠ .dropMapBounds

end

theorem Realised.served {S : Type} [LinearOrder S] {score : UInt64 → Nat → S}
    {conf : MarlinConf} {mp : Maps} (h : Realised score conf mp)
    (hmodes : ∀ b ∈ conf.backends, encapMode b.abi.flags ∈ confModes) {vip : ConfVip}
    (hvip : vip ∈ conf.vips) {host : Host} {x : Xdp}
    (hselect : marlinLbSelectVip mp x.pkt = some vip.vipMeta)
    (hquic : ¬QuicSteered host mp vip.vipMeta (x.admitted host mp vip.vipMeta).2) :
    Served score conf vip host mp vip.vipMeta x := by
  have htuple : (x.admitted host mp vip.vipMeta).2.pkt.tuple = x.pkt.tuple := by
    rw [Xdp.admitted, marlinLbAdmit_pkt]
  have hoff : (x.admitted host mp vip.vipMeta).1.ofTables = false :=
    marlinLbAdmit_ofTables host (h.nums vip hvip) _
  have hpacket := h.processPacket hmodes hvip hquic
  rw [htuple] at hpacket
  have hrc : (marlinLbProcess host mp x).1.ofTables = false ∨
      ((marlinLbProcess host mp x).1 = .dropNoBackend ∧ vip.members = []) ∨
      ((marlinLbProcess host mp x).1 = .dropBackendDown ∧
        ∃ b ∈ conf.backends, conf.winner score vip x.pkt.tuple = b.id ∧
          b.abi.flags &&& marlinBeFState = 0) := by
    rw [marlinLbProcess_eq host hselect]
    split
    · exact Or.inl hoff
    · exact hpacket
  refine ⟨?_, ?_, ?_, ?_⟩
  · intro _ _
    have hhash := marlinLbSelectBackend_hash hquic
    rw [h.selectByHash hvip, htuple] at hhash
    refine ⟨fun hnil => by rw [hhash, if_pos hnil], fun hnil => ?_⟩
    obtain ⟨m, hm, b, hb, hfind, hwinner⟩ :=
      h.checked.winner_mem score hvip x.pkt.tuple hnil
    obtain ⟨ifindex, hvalue⟩ := h.slot hb
    exact ⟨m, hm, b, hfind, hwinner, ifindex, by rw [hhash, if_neg hnil, hwinner, hvalue]⟩
  · intro hno
    rcases hrc with hoff | ⟨-, hnil⟩ | ⟨hdown, -⟩
    · rw [hno] at hoff
      cases hoff
    · exact hnil
    · rw [hno] at hdown
      cases hdown
  · intro hdown
    rcases hrc with hoff | ⟨hno, -⟩ | ⟨-, hb⟩
    · rw [hdown] at hoff
      cases hoff
    · rw [hdown] at hno
      cases hno
    · exact hb
  · intro hbounds
    rw [hbounds] at hrc
    simp [MarlinRet.ofTables] at hrc

/--
Once a configuration is applied, a frame that the parser accepts and that is addressed to
one of its entries resolves to that entry, and is served as the entry says.
-/
theorem reconcileApply_served {S : Type} [LinearOrder S] (score : UInt64 → Nat → S)
    {keys : BackendKeys} (hkeys : keys.Sound) {e : Env} (hhonest : e.Honest)
    (loaded : LoadedConf) {start : Maps} {n : Nat} {out : MarlinConf} {mp : Maps}
    (hout : (reconcileApply score keys loaded.conf e n start).result = some out)
    (hmp : mp = (reconcileApply score keys loaded.conf e n start).store)
    {frame : Frame} (hframe : frame.Accepted mp.config) {vip : ConfVip}
    (hvip : vip ∈ loaded.conf.vips)
    (howns : loaded.conf.Owns vip (frame.parsed mp.config).tuple.vipKey)
    (host : Host) (counters : Counters) (buckets : RatelimitMap) :
    ∃ num, vip.withNum num ∈ out.vips ∧
      marlinLbSelectVip mp (frame.parsed mp.config) = some (vip.withNum num).vipMeta ∧
      let x : Xdp := ⟨frame, frame.parsed mp.config, counters, buckets⟩
      let r := marlinLbProcess host mp x
      xdpMain host mp frame counters buckets = (marlinAction r.1, r.2.count r.1) ∧
      (¬QuicSteered host mp (vip.withNum num).vipMeta
          (x.admitted host mp (vip.withNum num).vipMeta).2 →
        Served score loaded.conf vip host mp (vip.withNum num).vipMeta x) := by
  obtain ⟨rfl, hreal⟩ := reconcileApply_realised score hkeys hhonest loaded hout
  rw [← hmp] at hreal
  obtain ⟨num, hassigned⟩ := MarlinConf.mem_assigned start hvip
  have hkey : marlinLbVipKey (frame.parsed mp.config) =
      (frame.parsed mp.config).tuple.vipKey :=
    marlinLbVipKey_eq (howns.canonical loaded.keysCanonical hvip)
  have howns' : (loaded.conf.assigned start).Owns (vip.withNum num)
      (marlinLbVipKey (frame.parsed mp.config)) := by
    rw [hkey, MarlinConf.Owns, MarlinConf.assigned_keys]
    exact howns
  have hselect := hreal.selectVip_iff.mpr ⟨vip.withNum num, hassigned, howns', rfl⟩
  refine ⟨num, hassigned, hselect, xdpMain_accepted host hframe counters buckets, ?_⟩
  intro hquic
  have hserved := hreal.served loaded.mode_mem hassigned hselect hquic
  exact ⟨hserved.chosen, hserved.noBackend, hserved.backendDown, hserved.mapBounds⟩

namespace Sample

def segment : Frame :=
  [2, 0, 0, 0, 0, 1, 2, 0, 0, 0, 0, 2, 8, 0,
    0x45, 0, 0, 40, 0, 0, 0x40, 0, 64, 6, 0, 0, 198, 51, 100, 7, 192, 0, 2, 1,
    4, 210, 0, 80, 0, 0, 0, 0, 0, 0, 0, 0, 0x50, 2, 0, 0, 0, 0, 0, 0]

theorem segment_accepted (cfg : MarlinConfig) : segment.Accepted cfg := by
  have h : segment.Accepted 0 := by
    rw [Frame.Accepted]
    decide
  exact h.withCfg cfg

theorem segment_vipKey (cfg : MarlinConfig) : (segment.parsed cfg).tuple.vipKey = key := by
  have h : (segment.parsed 0).tuple.vipKey = key := by decide
  rw [segment.parsed_withCfg 0 cfg]
  exact h

def entry : ConfVip := vip [key] [⟨[98], 5, 1⟩]

theorem loaded_applied (n : Nat) :
    (reconcileApply score .layout loaded.conf calmEnv n Maps.fresh).result =
      some (loaded.conf.assigned Maps.fresh) :=
  reconcileApply_succeeds score BackendKeys.layout_sound calmEnv_honest
    loaded.checked.keys_distinct loaded.keysCanonical n loaded_unhindered_layout

end Sample

theorem reconcileApply_served_segment :
    ∃ (mp : Maps) (num : Nat),
      mp = (reconcileApply Sample.score .layout Sample.loaded.conf Sample.calmEnv 0
        Maps.fresh).store ∧
      Served Sample.score Sample.loaded.conf Sample.entry Sample.host mp
        (Sample.entry.withNum num).vipMeta
        ⟨Sample.segment, Sample.segment.parsed mp.config, Sample.counters, fun _ => none⟩ := by
  obtain ⟨num, -, -, -, hserved⟩ := reconcileApply_served Sample.score
    BackendKeys.layout_sound Sample.calmEnv_honest Sample.loaded (Sample.loaded_applied 0) rfl
    (Sample.segment_accepted _) (show Sample.entry ∈ Sample.loaded.conf.vips by decide)
    (Or.inl (by rw [Sample.segment_vipKey]; decide)) Sample.host Sample.counters fun _ => none
  have hflags : (0 : UInt32) &&& vipQuic = 0 := by decide
  exact ⟨_, num, rfl, hserved fun hquic => hquic.1 hflags⟩

end Marlin
