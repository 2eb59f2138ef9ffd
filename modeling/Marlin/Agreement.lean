import Marlin.Bpf.QuicCid
import Marlin.Marlind.StaleSlot
import Marlin.Realisation

/-!
# Instances agree

Two instances that apply the same configuration, up to the order of what it lists, send
every packet to the same backend, whatever their maps held before.
-/

namespace Marlin

open Marlin.Library

/-! ## Configurations that state the same -/

/-- Two entries that state the same, their addresses and members in any order. -/
structure ConfVip.Alike (a b : ConfVip) : Prop where
  keys : a.keys.Perm b.keys
  flags : a.vipMeta.flags = b.vipMeta.flags
  hashKey : a.vipMeta.hashKey = b.vipMeta.hashKey
  tableSeed : a.tableSeed = b.tableSeed
  members : a.members.Perm b.members

structure MarlinConf.Alike (a b : MarlinConf) : Prop where
  backends : a.backends.Perm b.backends
  vips : ∃ vips, a.vips.Perm vips ∧ List.Forall₂ ConfVip.Alike vips b.vips

theorem ConfVip.Alike.refl (a : ConfVip) : a.Alike a :=
  ⟨.refl _, rfl, rfl, rfl, .refl _⟩

theorem ConfVip.Alike.symm {a b : ConfVip} (h : a.Alike b) : b.Alike a :=
  ⟨h.keys.symm, h.flags.symm, h.hashKey.symm, h.tableSeed.symm, h.members.symm⟩

theorem MarlinConf.Alike.refl (a : MarlinConf) : a.Alike a :=
  ⟨.refl _, a.vips, .refl _, List.forall₂_same.mpr fun vip _ => .refl vip⟩

theorem MarlinConf.Alike.symm {a b : MarlinConf} (h : a.Alike b) : b.Alike a := by
  obtain ⟨vips, hperm, halike⟩ := h.vips
  obtain ⟨others, halike', hperm'⟩ := List.perm_comp_forall₂ hperm halike
  exact ⟨h.backends.symm, others, hperm'.symm,
    halike'.flip.imp fun _ _ hvip => hvip.symm⟩

theorem MarlinConf.Alike.vip {a b : MarlinConf} (h : a.Alike b) {vip : ConfVip}
    (hvip : vip ∈ a.vips) : ∃ other ∈ b.vips, vip.Alike other := by
  obtain ⟨vips, hperm, halike⟩ := h.vips
  have hmem := hperm.mem_iff.mp hvip
  generalize b.vips = others at halike
  clear hperm hvip h
  induction halike with
  | nil => cases hmem
  | cons hhead _ ih =>
      rcases List.mem_cons.mp hmem with rfl | hmem
      · exact ⟨_, List.mem_cons_self, hhead⟩
      · obtain ⟨other, hother, hrel⟩ := ih hmem
        exact ⟨other, List.mem_cons_of_mem _ hother, hrel⟩

theorem MarlinConf.Alike.mem_keys {a b : MarlinConf} (h : a.Alike b) {key : VipKey}
    (hkey : key ∈ a.keys) : key ∈ b.keys := by
  obtain ⟨vip, hvip, hmem⟩ := List.mem_flatMap.mp hkey
  obtain ⟨other, hother, hrel⟩ := h.vip hvip
  exact List.mem_flatMap.mpr ⟨other, hother, hrel.keys.mem_iff.mp hmem⟩

theorem MarlinConf.Alike.owns {a b : MarlinConf} (h : a.Alike b) {vip other : ConfVip}
    (hrel : vip.Alike other) {key : VipKey} (howns : a.Owns vip key) : b.Owns other key := by
  rcases howns with hkey | ⟨hnot, hany⟩
  · exact Or.inl (hrel.keys.mem_iff.mp hkey)
  · exact Or.inr ⟨fun hkey => hnot (h.symm.mem_keys hkey), hrel.keys.mem_iff.mp hany⟩

/-! ## Names find the same backends -/

theorem find?_perm {α : Type} {p : α → Bool} {xs ys : List α} (h : xs.Perm ys)
    (hunique : ∀ x ∈ xs, ∀ y ∈ xs, p x = true → p y = true → x = y) :
    xs.find? p = ys.find? p := by
  cases hfind : ys.find? p with
  | none =>
      rw [List.find?_eq_none] at hfind ⊢
      exact fun x hx => hfind x (h.mem_iff.mp hx)
  | some y =>
      have hy := h.mem_iff.mpr (List.mem_of_find?_eq_some hfind)
      cases hfind' : xs.find? p with
      | none => exact absurd (List.find?_some hfind) (List.find?_eq_none.mp hfind' y hy)
      | some x =>
          rw [hunique x (List.mem_of_find?_eq_some hfind') y hy (List.find?_some hfind')
            (List.find?_some hfind)]

theorem findBackend_perm {a b : MarlinConf} (h : a.backends.Perm b.backends)
    (hnames : a.backends.Pairwise fun x y => strncmpEq marlinConfNameMax x.name y.name = false)
    (name : CBuf) : findBackend a name = findBackend b name := by
  have hsymm : Std.Symm fun x y : ConfBackend =>
      strncmpEq marlinConfNameMax x.name y.name = false := by
    refine ⟨fun x y hxy => ?_⟩
    rw [Bool.eq_false_iff, Ne, strncmpEq_iff] at hxy ⊢
    exact fun heq => hxy heq.symm
  refine find?_perm h ?_
  intro x hx y hy hxname hyname
  by_contra hne
  have hdistinct := hnames.forall hx hy hne
  rw [strncmpEq_iff] at hxname hyname
  rw [Bool.eq_false_iff, Ne, strncmpEq_iff] at hdistinct
  exact hdistinct (hxname.trans hyname.symm)

theorem MarlinConf.Alike.settle {a b : MarlinConf} (h : a.Alike b)
    (hnames : a.backends.Pairwise fun x y => strncmpEq marlinConfNameMax x.name y.name = false)
    (f g : CBuf → Nat) : (a.settle f).Alike (b.settle g) := by
  have hbackends := h.backends.map settleFib
  obtain ⟨vips, hperm, halike⟩ := h.vips
  refine ⟨hbackends, _, hperm.map _, ?_⟩
  rw [List.forall₂_map_left_iff, MarlinConf.settle, List.forall₂_map_right_iff]
  refine halike.imp ?_
  intro vip other hrel
  refine ⟨hrel.keys, hrel.flags, hrel.hashKey, hrel.tableSeed, ?_⟩
  have hresolve : resolveMember { a with
        inst := (checkInstance f a.inst).1, backends := a.backends.map settleFib } =
      resolveMember { b with
        inst := (checkInstance g b.inst).1, backends := b.backends.map settleFib } := by
    funext m
    have hfind := findBackend_perm (a := { a with
        inst := (checkInstance f a.inst).1, backends := a.backends.map settleFib })
      (b := { b with
        inst := (checkInstance g b.inst).1, backends := b.backends.map settleFib })
      hbackends (List.pairwise_map.mpr hnames) m.backendName
    simp only [resolveMember, hfind]
  simp only [hresolve]
  exact hrel.members.map _

/-! ## The same winners -/

section Winner

variable {S : Type} [LinearOrder S] (score : UInt64 → Nat → S) {a b : MarlinConf}

theorem MarlinConf.Alike.ownMembers (h : a.Alike b) (hchecked : a.Checked) {vip other : ConfVip}
    (hrel : vip.Alike other) : (a.ownMembers vip).Perm (b.ownMembers other) := by
  have hnamed : a.namedMember = b.namedMember := by
    funext m
    rw [MarlinConf.namedMember, MarlinConf.namedMember,
      findBackend_perm h.backends hchecked.names_distinct]
  rw [MarlinConf.ownMembers, MarlinConf.ownMembers, hnamed]
  exact hrel.members.filterMap _

theorem MarlinConf.Alike.winner_eq (h : a.Alike b) (hchecked : a.Checked) {vip other : ConfVip}
    (hrel : vip.Alike other) (tuple : PacketTuple) :
    a.winner score vip tuple = b.winner score other tuple := by
  have hrow : tuple.row vip.vipMeta = tuple.row other.vipMeta := by
    rw [PacketTuple.row, PacketTuple.row, hrel.flags, hrel.hashKey]
  rw [MarlinConf.winner, MarlinConf.winner, hrow, hrel.tableSeed]
  exact fwdGenBlock_perm score _ (h.ownMembers hchecked hrel) _

end Winner

/-! ## The same backends behind the slots -/

def Maps.upId (mp : Maps) (id : Nat) : Option Nat :=
  if (mp.backends id).flags &&& marlinBeFState = 0 then none else some (mp.backends id).id

theorem upId_eq {S : Type} [LinearOrder S] {score : UInt64 → Nat → S} {e : Env}
    {keys : BackendKeys} {conf : MarlinConf} {mp : Maps} (hchecked : conf.Checked)
    (hdone : Reconciled score e keys conf mp) (hfaithful : Faithful e keys)
    (hown : mp.UpSlotsOwn) {id : Nat} (hid : id ≠ marlinNoBackend) (hlt : id < maxBackends) :
    mp.upId id = (conf.backends.find? fun b => b.id == id).bind fun b =>
      if b.abi.flags &&& marlinBeFState = 0 then none else some b.id := by
  cases hfind : conf.backends.find? fun b => b.id == id with
  | some b =>
      have hb := List.mem_of_find?_eq_some hfind
      have hbid : b.id = id := by simpa using List.find?_some hfind
      obtain ⟨ifindex, hvalue⟩ := hdone.applied.filled hchecked.idsValid b hb
      rw [hbid] at hvalue
      simp only [Maps.upId, hvalue, Option.bind_some]
      rfl
  | none =>
      have hno : ∀ b ∈ conf.backends, b.id ≠ id := fun b hb hbid =>
        List.find?_eq_none.mp hfind b hb (by simpa using hbid)
      have hrange : id ∈ List.range' 1 (maxBackends - 1) := by
        rw [List.mem_range'_1]
        simp only [maxBackends, marlinNoBackend] at *
        omega
      have hretired := hdone.retired hfaithful id hrange hno
      rw [Maps.upId, Option.bind_none, if_pos]
      by_contra hup
      exact hretired (hown id hup)

theorem MarlinConf.Alike.find_id {a b : MarlinConf} (h : a.Alike b) (hchecked : a.Checked)
    (id : Nat) :
    (a.backends.find? fun x => x.id == id) = b.backends.find? fun x => x.id == id := by
  refine find?_perm h.backends ?_
  intro x hx y hy hxid hyid
  rw [beq_iff_eq] at hxid hyid
  exact List.inj_on_of_nodup_map hchecked.ids_nodup hx hy (hxid.trans hyid.symm)

/-! ## The same steering -/

/-- Two packets that `marlin_lb_quic_decode` cannot tell apart. -/
structure SameCid (host host' : Host) (vip vip' : VipMeta) (x y : Xdp) : Prop where
  loads : host.loadBytesFails = host'.loadBytesFails
  vipFlags : vip.flags = vip'.flags
  hashKey : vip.hashKey = vip'.hashKey
  frame : x.frame = y.frame
  pktFlags : x.pkt.flags = y.pkt.flags
  l4Off : x.pkt.l4Off = y.pkt.l4Off
  payload : x.pkt.udpPayloadLen = y.pkt.udpPayloadLen

section Steering

variable {host host' : Host} {vip vip' : VipMeta} {x y : Xdp}

theorem SameCid.symm (h : SameCid host host' vip vip' x y) : SameCid host' host vip' vip y x :=
  ⟨h.loads.symm, h.vipFlags.symm, h.hashKey.symm, h.frame.symm, h.pktFlags.symm,
    h.l4Off.symm, h.payload.symm⟩

theorem SameCid.carriesCid (h : SameCid host host' vip vip' x y) {id : Nat}
    (hcid : CarriesCid host vip x id) : CarriesCid host' vip' y id := by
  have hpos : x.pkt.cidPos = y.pkt.cidPos := by
    rw [MarlinCtx.cidPos, MarlinCtx.cidPos, h.l4Off]
  obtain ⟨⟨whole, min, max, declared, header, entropy, present⟩, encoded⟩ := hcid
  rw [h.pktFlags] at whole
  rw [h.vipFlags] at min max
  rw [h.vipFlags, h.payload] at declared
  rw [h.loads, hpos] at header
  rw [h.loads, hpos, h.vipFlags] at entropy
  rw [hpos, h.vipFlags, h.frame] at present
  rw [hpos, h.vipFlags, h.frame, h.hashKey] at encoded
  exact ⟨⟨whole, min, max, declared, header, entropy, present⟩, encoded⟩

theorem SameCid.decode_eq (h : SameCid host host' vip vip' x y) :
    (marlinLbQuicDecode host vip x).1 = (marlinLbQuicDecode host' vip' y).1 := by
  by_cases hid : (marlinLbQuicDecode host vip x).1 = marlinNoBackend
  · by_contra hne
    have hother : (marlinLbQuicDecode host' vip' y).1 ≠ marlinNoBackend := by
      rw [← hid]
      exact fun heq => hne heq.symm
    obtain ⟨hcid, hlt⟩ := (marlinLbQuicDecode_eq_iff host' vip' y hother).mp rfl
    exact hne ((marlinLbQuicDecode_eq_iff host vip x hother).mpr ⟨h.symm.carriesCid hcid, hlt⟩)
  · obtain ⟨hcid, hlt⟩ := (marlinLbQuicDecode_eq_iff host vip x hid).mp rfl
    exact ((marlinLbQuicDecode_eq_iff host' vip' y hid).mpr ⟨h.carriesCid hcid, hlt⟩).symm

def steeredId (host : Host) (mp : Maps) (vip : VipMeta) (x : Xdp) : Option Nat :=
  if vip.flags &&& vipQuic ≠ 0 ∧ x.pkt.flags &&& marlinCtxFQuic ≠ 0 ∧
      (marlinLbQuicDecode host vip x).1 ≠ marlinNoBackend then
    mp.upId (marlinLbQuicDecode host vip x).1
  else none

theorem marlinLbSelectBackendQuic_id (host : Host) (mp : Maps) (vip : VipMeta) (x : Xdp) :
    (marlinLbSelectBackendQuic host mp vip x).1.map Backend.id =
      if (marlinLbQuicDecode host vip x).1 = marlinNoBackend then none
      else mp.upId (marlinLbQuicDecode host vip x).1 := by
  simp only [marlinLbSelectBackendQuic]
  by_cases hid : (marlinLbQuicDecode host vip x).1 = marlinNoBackend
  · simp only [if_pos hid, Option.map_none]
  · have hlt := ((marlinLbQuicDecode_eq_iff host vip x hid).mp rfl).2
    simp only [if_neg hid, Maps.backendAt, if_pos hlt, Maps.upId]
    split <;> rfl

theorem marlinLbSelectBackend_id (host : Host) (mp : Maps) (vip : VipMeta) (x : Xdp) :
    (marlinLbSelectBackend host mp vip x).1.map Backend.id =
      (steeredId host mp vip x).or
        ((marlinLbSelectBackendByHash mp x.pkt vip).map Backend.id) := by
  have hquicId := marlinLbSelectBackendQuic_id host mp vip x
  have hpkt := marlinLbSelectBackendQuic_pkt host mp vip x
  simp only [marlinLbSelectBackend, steeredId]
  by_cases hquic : vip.flags &&& vipQuic ≠ 0 ∧ x.pkt.flags &&& marlinCtxFQuic ≠ 0
  · have hsteered : (if vip.flags &&& vipQuic ≠ 0 ∧ x.pkt.flags &&& marlinCtxFQuic ≠ 0 ∧
        (marlinLbQuicDecode host vip x).1 ≠ marlinNoBackend then
        mp.upId (marlinLbQuicDecode host vip x).1 else none) =
        (marlinLbSelectBackendQuic host mp vip x).1.map Backend.id := by
      rw [hquicId]
      simp only [hquic.1, hquic.2, ne_eq, not_false_eq_true, true_and, ite_not]
    rw [hsteered, if_pos hquic]
    split
    · next be y hsome => simp [hsome]
    · next y hnone =>
      rw [hnone] at hpkt ⊢
      simp [← hpkt]
  · rw [if_neg hquic, if_neg fun h => hquic ⟨h.1, h.2.1⟩]
    rfl

end Steering

/-! ## Two instances -/

/-- What `marlind` has made of its maps: a configuration applied from some prior state. -/
structure Instance {S : Type} [LinearOrder S] (score : UInt64 → Nat → S) where
  loaded : LoadedConf
  keys : BackendKeys
  sound : keys.Sound
  env : Env
  honest : env.Honest
  prior : Maps
  calls : Nat
  applied : (reconcileApply score keys loaded.conf env calls prior).result.isSome = true

namespace Instance

variable {S : Type} [LinearOrder S] {score : UInt64 → Nat → S}

def maps (inst : Instance score) : Maps :=
  (reconcileApply score inst.keys inst.loaded.conf inst.env inst.calls inst.prior).store

def conf (inst : Instance score) : MarlinConf := inst.loaded.conf.assigned inst.prior

def Resolves (inst : Instance score) (frame : Frame) (vip : ConfVip) (vmeta : VipMeta) : Prop :=
  vip ∈ inst.loaded.conf.vips ∧
    inst.loaded.conf.Owns vip (marlinLbVipKey (frame.parsed inst.maps.config)) ∧
    (∃ num, vip.withNum num ∈ inst.conf.vips ∧ vmeta = (vip.withNum num).vipMeta) ∧
    marlinLbSelectVip inst.maps (frame.parsed inst.maps.config) = some vmeta

theorem reconciled (inst : Instance score) :
    Reconciled score inst.env inst.keys inst.conf inst.maps := by
  obtain ⟨out, hout⟩ := Option.isSome_iff_exists.mp inst.applied
  exact ((reconcileApply_meets score inst.sound inst.honest inst.loaded.checked.keys_distinct
    inst.loaded.keysCanonical inst.prior inst.calls).finished out hout).2

theorem realised (inst : Instance score) : Realised score inst.conf inst.maps := by
  obtain ⟨out, hout⟩ := Option.isSome_iff_exists.mp inst.applied
  obtain ⟨rfl, hreal⟩ := reconcileApply_realised score inst.sound inst.honest inst.loaded hout
  exact hreal

theorem invariant (inst : Instance score) {I : Maps → Prop}
    (hstep : ∀ s t, ReloadStep score inst.conf s t → I s → I t) (hprior : I inst.prior) :
    I inst.maps := by
  have hmeets := reconcileApply_meets score inst.sound inst.honest
    inst.loaded.checked.keys_distinct inst.loaded.keysCanonical inst.prior inst.calls
  exact (hmeets.linked.invariant hmeets.steps hstep hprior).1

/-- A retirement that reads no slot leaves every slot outside the file as it was. -/
theorem slotMissed (inst : Instance score) (hmisses : RetireMisses inst.env inst.keys) {id : Nat}
    (hno : ∀ b ∈ inst.loaded.conf.backends, b.id ≠ id) :
    inst.maps.backends id = inst.prior.backends id :=
  reconcileApply_slotMissed score inst.sound hmisses inst.loaded.checked.id_lt hno inst.calls
    inst.prior

theorem idsValid (inst : Instance score) : inst.conf.IdsValid :=
  ⟨inst.loaded.checked.id_lt, inst.loaded.checked.ids_nodup⟩

theorem resolves_iff (inst : Instance score) (frame : Frame) (vmeta : VipMeta) :
    marlinLbSelectVip inst.maps (frame.parsed inst.maps.config) = some vmeta ↔
      ∃ vip, inst.Resolves frame vip vmeta := by
  constructor
  · intro hselect
    obtain ⟨vip, hvip, howns, rfl⟩ := inst.realised.selectVip_iff.mp hselect
    obtain ⟨i, vip, hi, rfl⟩ := MarlinConf.mem_withNums.mp hvip
    rw [MarlinConf.Owns, Instance.conf, MarlinConf.assigned_keys] at howns
    exact ⟨vip, List.mem_of_getElem? hi, howns, ⟨_, hvip, rfl⟩, hselect⟩
  · rintro ⟨vip, -, -, -, hselect⟩
    exact hselect

theorem selectByHash_id (inst : Instance score) {frame : Frame} {vip : ConfVip}
    {vmeta : VipMeta} (h : inst.Resolves frame vip vmeta) (pkt : MarlinCtx) :
    (marlinLbSelectBackendByHash inst.maps pkt vmeta).map Backend.id =
      if vip.members = [] then none
      else some (inst.loaded.conf.winner score vip pkt.tuple) := by
  obtain ⟨-, -, ⟨num, hvip, rfl⟩, -⟩ := h
  have hwinner : inst.conf.winner score (vip.withNum num) pkt.tuple =
      inst.loaded.conf.winner score vip pkt.tuple := rfl
  rw [inst.realised.selectByHash hvip]
  by_cases hnil : vip.members = []
  · rw [if_pos (show (vip.withNum num).members = [] from hnil), if_pos hnil]
    rfl
  · rw [if_neg (show ¬(vip.withNum num).members = [] from hnil), if_neg hnil]
    obtain ⟨-, -, b, hb, -, hid⟩ := inst.realised.checked.winner_mem score hvip pkt.tuple hnil
    obtain ⟨ifindex, hvalue⟩ := inst.realised.slot hb
    rw [← hwinner, hid, hvalue]
    rfl

/-- Both resolve the frame to entries that state the same and choose the same backend, or
neither resolves it. -/
def SameChoice (a b : Instance score) (host host' : Host) (frame : Frame) : Prop :=
  (marlinLbSelectVip a.maps (frame.parsed a.maps.config) = none ∧
      marlinLbSelectVip b.maps (frame.parsed b.maps.config) = none) ∨
    ∃ vip other vmeta vmeta', vip.Alike other ∧ a.Resolves frame vip vmeta ∧
      b.Resolves frame other vmeta' ∧
      ∀ x y : Xdp, x.Holds frame a.maps.config → y.Holds frame b.maps.config →
        (marlinLbSelectBackend host a.maps vmeta x).1.map Backend.id =
          (marlinLbSelectBackend host' b.maps vmeta' y).1.map Backend.id

theorem resolves_of_owns (inst : Instance score) (frame : Frame) {vip : ConfVip}
    (hvip : vip ∈ inst.loaded.conf.vips)
    (howns : inst.loaded.conf.Owns vip (marlinLbVipKey (frame.parsed inst.maps.config))) :
    ∃ vmeta, inst.Resolves frame vip vmeta := by
  obtain ⟨num, hassigned⟩ := MarlinConf.mem_assigned inst.prior hvip
  have howns' : inst.conf.Owns (vip.withNum num)
      (marlinLbVipKey (frame.parsed inst.maps.config)) := by
    rw [MarlinConf.Owns, Instance.conf, MarlinConf.assigned_keys]
    exact howns
  exact ⟨_, hvip, howns, ⟨num, hassigned, rfl⟩,
    inst.realised.selectVip_iff.mpr ⟨_, hassigned, howns', rfl⟩⟩

theorem resolves_alike {a b : Instance score} (h : a.loaded.conf.Alike b.loaded.conf)
    {frame : Frame} {vip : ConfVip} {vmeta : VipMeta} (hresolves : a.Resolves frame vip vmeta) :
    ∃ other vmeta', vip.Alike other ∧ b.Resolves frame other vmeta' := by
  obtain ⟨hvip, howns, -, -⟩ := hresolves
  obtain ⟨other, hother, hrel⟩ := h.vip hvip
  rw [frame.parsed_vipKey b.maps.config] at howns
  obtain ⟨vmeta', hresolves⟩ := b.resolves_of_owns frame hother (h.owns hrel howns)
  exact ⟨other, vmeta', hrel, hresolves⟩

theorem sameCid {a b : Instance score} {host host' : Host}
    (hloads : host.loadBytesFails = host'.loadBytesFails) {frame : Frame}
    {vip other : ConfVip} {vmeta vmeta' : VipMeta} (hrel : vip.Alike other)
    (ha : a.Resolves frame vip vmeta) (hb : b.Resolves frame other vmeta') {x y : Xdp}
    (hx : x.Holds frame a.maps.config) (hy : y.Holds frame b.maps.config) :
    SameCid host host' vmeta vmeta' x y ∧ x.pkt.tuple = y.pkt.tuple := by
  obtain ⟨-, -, ⟨num, -, rfl⟩, -⟩ := ha
  obtain ⟨-, -, ⟨num', -, rfl⟩, -⟩ := hb
  obtain ⟨hxframe, verdict, hxpkt⟩ := hx
  obtain ⟨hyframe, verdict', hypkt⟩ := hy
  have hparsed := frame.parsed_withCfg a.maps.config b.maps.config
  rw [hparsed] at hypkt
  rw [hxpkt, hypkt]
  exact ⟨⟨hloads, hrel.flags, hrel.hashKey, hxframe.trans hyframe.symm, by rw [hxpkt, hypkt]; rfl,
    by rw [hxpkt, hypkt]; rfl, by rw [hxpkt, hypkt]; rfl⟩, rfl⟩

/--
Two instances whose files state the same choose the same backend for every frame, if in
both prior states a slot that is up carries its own index and both retirements read the
slots they ask for.
-/
theorem sameChoice {a b : Instance score} (h : a.loaded.parsed.Alike b.loaded.parsed)
    (ha : Faithful a.env a.keys) (hb : Faithful b.env b.keys) (haprior : a.prior.UpSlotsOwn)
    (hbprior : b.prior.UpSlotsOwn) {host host' : Host}
    (hloads : host.loadBytesFails = host'.loadBytesFails) (frame : Frame) :
    SameChoice a b host host' frame := by
  have hnames : a.loaded.parsed.backends.Pairwise fun x y =>
      strncmpEq marlinConfNameMax x.name y.name = false :=
    List.pairwise_map.mp a.loaded.checked.names_distinct
  have hconf : a.loaded.conf.Alike b.loaded.conf := h.settle hnames _ _
  have haown := a.invariant (fun s t hstep => hstep.upSlotsOwn a.idsValid) haprior
  have hbown := b.invariant (fun s t hstep => hstep.upSlotsOwn b.idsValid) hbprior
  cases hselect : marlinLbSelectVip a.maps (frame.parsed a.maps.config) with
  | none =>
      refine Or.inl ⟨hselect, ?_⟩
      cases hother : marlinLbSelectVip b.maps (frame.parsed b.maps.config) with
      | none => rfl
      | some vmeta =>
          obtain ⟨vip, hresolves⟩ := (b.resolves_iff frame vmeta).mp hother
          obtain ⟨_, vmeta', -, -, -, -, hsome⟩ := resolves_alike hconf.symm hresolves
          rw [hselect] at hsome
          cases hsome
  | some vmeta =>
      obtain ⟨vip, haresolves⟩ := (a.resolves_iff frame vmeta).mp hselect
      obtain ⟨other, vmeta', hrel, hbresolves⟩ := resolves_alike hconf haresolves
      refine Or.inr ⟨vip, other, vmeta, vmeta', hrel, haresolves, hbresolves, ?_⟩
      intro x y hx hy
      obtain ⟨hsame, htuple⟩ := sameCid hloads hrel haresolves hbresolves hx hy
      have hhash : (marlinLbSelectBackendByHash a.maps x.pkt vmeta).map Backend.id =
          (marlinLbSelectBackendByHash b.maps y.pkt vmeta').map Backend.id := by
        have hnil : vip.members = [] ↔ other.members = [] :=
          ⟨fun hvip => (hvip ▸ hrel.members).symm.eq_nil, fun hvip => (hvip ▸ hrel.members).eq_nil⟩
        rw [a.selectByHash_id haresolves, b.selectByHash_id hbresolves, htuple,
          hconf.winner_eq score a.loaded.checked hrel]
        simp only [hnil]
      have hsteered : steeredId host a.maps vmeta x = steeredId host' b.maps vmeta' y := by
        have hup : (marlinLbQuicDecode host' vmeta' y).1 ≠ marlinNoBackend →
            a.maps.upId (marlinLbQuicDecode host' vmeta' y).1 =
              b.maps.upId (marlinLbQuicDecode host' vmeta' y).1 := by
          intro hne
          have hlt := ((marlinLbQuicDecode_eq_iff host' vmeta' y hne).mp rfl).2
          rw [upId_eq a.realised.checked a.reconciled ha haown hne hlt,
            upId_eq b.realised.checked b.reconciled hb hbown hne hlt]
          congr 1
          exact hconf.find_id a.loaded.checked _
        rw [steeredId, steeredId, hsame.vipFlags, hsame.pktFlags, hsame.decode_eq]
        split
        · next hquic => exact hup hquic.2.2
        · rfl
      rw [marlinLbSelectBackend_id, marlinLbSelectBackend_id, hhash, hsteered]

end Instance

namespace Sample

def quicKey : VipKey := ⟨⟨⟨192, 0, 2, 1⟩, 0, 0, 0⟩, ⟨1, 187⟩, ipprotoUdp, afInet⟩

def quicLoaded : LoadedConf :=
  load (conf [backend ⟨10, 0, 0, 1⟩ []]
      [{ vip [quicKey] [⟨[98], 0, 1⟩] with
        vipMeta := { quicVip with vipNum := vipAllocNumUnset } }])
    (by simp [MarlinConf.keys, conf, vip]; decide) (by decide) (by decide)

theorem quicLoaded_unhindered {e : Env} (hcalm : e.Calm) (hsteady : KeysSteady e .layout)
    {mp : Maps} (hempty : mp.vipMap = ∅) : Unhindered e .layout quicLoaded.conf mp := by
  have hbaseline : mp.baseline = [] := by
    rw [Maps.baseline, hempty]
    rfl
  have hreadable : mp.Readable := ⟨by rw [hempty]; decide, by rw [hbaseline]; simp⟩
  have hcanon : mp.KeysCanonical := fun _ _ hlookup => by simp [hempty] at hlookup
  exact ⟨hcalm, hreadable, hcanon, by decide, by rw [hbaseline]; rfl, rfl, rfl, rfl, rfl, rfl,
    rfl, by decide, hsteady⟩

def quicInstance (flags : UInt8) : Instance score where
  loaded := quicLoaded
  keys := .layout
  sound := BackendKeys.layout_sound
  env := calmEnv
  honest := calmEnv_honest
  prior := slotMaps flags
  calls := 0
  applied := by
    rw [reconcileApply_succeeds score BackendKeys.layout_sound calmEnv_honest
      quicLoaded.checked.keys_distinct quicLoaded.keysCanonical 0
      (quicLoaded_unhindered calmEnv_calm (fun _ _ _ _ hlt => hlt) rfl)]
    rfl

theorem calmEnv_faithful : Faithful calmEnv .layout :=
  ⟨fun _ => rfl, fun _ _ hid => BackendKeys.layout_ofId_zero hid⟩

theorem quicFrame_vipKey (cfg : MarlinConfig) :
    marlinLbVipKey (quicFrame.parsed cfg) = quicKey := by
  have hzero : marlinLbVipKey (quicFrame.parsed 0) = quicKey := by decide +kernel
  rw [quicFrame.parsed_withCfg 0 cfg]
  exact hzero

theorem quicLoaded_vips : ∀ vip ∈ quicLoaded.conf.vips, vip.vipMeta.flags = quicVip.flags ∧
    vip.vipMeta.hashKey = quicVip.hashKey ∧ vip.members ≠ [] := by
  decide

theorem slotMaps_upSlotsOwn {f : UInt8} (h : f &&& marlinBeFState = 0) :
    (slotMaps f).UpSlotsOwn :=
  fun _ hup => absurd h hup

theorem quicFrame_steeredId {inst : Instance score} (hloaded : inst.loaded = quicLoaded)
    {vip : ConfVip} {vmeta : VipMeta} (h : inst.Resolves quicFrame vip vmeta) {x : Xdp}
    (hx : x.Holds quicFrame inst.maps.config) :
    steeredId host inst.maps vmeta x = inst.maps.upId 9 := by
  obtain ⟨hvip, -, ⟨num, -, rfl⟩, -⟩ := h
  obtain ⟨hflags, hhashKey, -⟩ := quicLoaded_vips vip (hloaded ▸ hvip)
  have hflags' : (vip.withNum num).vipMeta.flags = quicVip.flags := hflags
  have hhashKey' : (vip.withNum num).vipMeta.hashKey = quicVip.hashKey := hhashKey
  have hframe : ShortHeaderAt quicFrame 34
      (quicCidEncode (vip.withNum num).vipMeta.hashKey 9 [1, 2, 3, 4]) := by
    rw [hhashKey']
    exact quicFrame_shortHeaderAt
  have hload : ∀ pos len, host.loadBytesFails pos len = false := fun _ _ => rfl
  obtain ⟨hquic, hcid⟩ := hframe.carriesCid (by rw [hflags']; decide) (by rw [hflags']; decide)
    (by rw [hflags']; decide) hload hx
  have hdecode := (marlinLbQuicDecode_eq_iff host _ x (by decide)).mpr
    ⟨hcid, show 9 < maxBackends by decide⟩
  rw [steeredId, hdecode, if_pos ⟨by rw [hflags']; decide, hquic, by decide⟩]

end Sample

theorem Instance.sameChoice_down :
    Instance.SameChoice (Sample.quicInstance 0) (Sample.quicInstance marlinBeFFib) Sample.host
      Sample.host Sample.quicFrame := by
  have halike := MarlinConf.Alike.refl Sample.quicLoaded.parsed
  have hfirst := Sample.slotMaps_upSlotsOwn (f := 0) (by decide)
  have hsecond := Sample.slotMaps_upSlotsOwn (f := marlinBeFFib) (by decide)
  exact Instance.sameChoice (a := Sample.quicInstance 0) (b := Sample.quicInstance marlinBeFFib)
    halike Sample.calmEnv_faithful Sample.calmEnv_faithful hfirst hsecond rfl Sample.quicFrame

namespace Sample

/-- A host whose reconciler has something on its stack behind the local. -/
def dirtyEnv : Env := { calmEnv with stack := fun _ => 1 }

theorem dirtyEnv_calm : dirtyEnv.Calm :=
  ⟨fun _ => rfl, fun _ _ => rfl, fun _ => rfl, fun _ => rfl, fun _ => rfl⟩

theorem dirtyEnv_misses : RetireMisses dirtyEnv .layout :=
  .of_stack fun _ => show 1 % 2 ^ 16 ≠ 0 by decide

def servedMaps : Maps := { Maps.fresh with
  backends := Function.update Maps.fresh.backends 9
    { (0 : Backend) with id := 9, flags := marlinBeFState } }

theorem servedMaps_upSlotsOwn : servedMaps.UpSlotsOwn := by
  intro id hup
  by_cases hid : id = 9
  · rw [hid]
    simp [servedMaps]
  · have hfresh : servedMaps.backends id = 0 := Function.update_of_ne hid _ _
    rw [hfresh] at hup
    exact (hup rfl).elim

def missedInstance : Instance score where
  loaded := quicLoaded
  keys := .layout
  sound := BackendKeys.layout_sound
  env := dirtyEnv
  honest := dirtyEnv_calm.smooth.honest
  prior := servedMaps
  calls := 0
  applied := by
    rw [reconcileApply_succeeds score BackendKeys.layout_sound dirtyEnv_calm.smooth.honest
      quicLoaded.checked.keys_distinct quicLoaded.keysCanonical 0
      (quicLoaded_unhindered dirtyEnv_calm dirtyEnv_misses.steady rfl)]
    rfl

theorem quicLoaded_ids : ∀ b ∈ quicLoaded.conf.backends, b.id ≠ 9 ∧ b.id < maxBackends := by
  decide

theorem missedInstance_upId : missedInstance.maps.upId 9 = some 9 := by
  have hkept : missedInstance.maps.backends 9 = missedInstance.prior.backends 9 :=
    missedInstance.slotMissed dirtyEnv_misses fun b hb => (quicLoaded_ids b hb).1
  rw [Maps.upId, hkept]
  rfl

theorem quicInstance_upId : (quicInstance 0).maps.upId 9 = none := by
  have hown := (quicInstance 0).invariant
    (fun s t hstep => hstep.upSlotsOwn (quicInstance 0).idsValid)
    (slotMaps_upSlotsOwn (f := 0) (by decide))
  have hfind : (quicInstance 0).conf.backends.find? (fun b => b.id == 9) = none :=
    List.find?_eq_none.mpr fun b hb heq => (quicLoaded_ids b hb).1 (by simpa using heq)
  rw [upId_eq (quicInstance 0).realised.checked (quicInstance 0).reconciled calmEnv_faithful hown
    (by decide) (by decide), hfind]
  rfl

end Sample

/--
The same file on two hosts.  One of them retires nothing, so a connection ID that names the
dropped backend is still steered there; the other one takes the table.
-/
theorem not_sameChoice_missed :
    Sample.missedInstance.loaded.parsed.Alike (Sample.quicInstance 0).loaded.parsed ∧
      Sample.missedInstance.prior.UpSlotsOwn ∧ (Sample.quicInstance 0).prior.UpSlotsOwn ∧
      ¬Instance.SameChoice Sample.missedInstance (Sample.quicInstance 0) Sample.host Sample.host
        Sample.quicFrame := by
  refine ⟨.refl _, Sample.servedMaps_upSlotsOwn,
    Sample.slotMaps_upSlotsOwn (f := 0) (by decide), ?_⟩
  rintro (⟨hnone, -⟩ | ⟨vip, other, vmeta, vmeta', -, ha, hb, hsame⟩)
  · have howner : ∃ vip ∈ Sample.quicLoaded.conf.vips, Sample.quicKey ∈ vip.keys := by decide
    obtain ⟨vip, hvip, hmem⟩ := howner
    obtain ⟨vmeta, -, -, -, hsome⟩ := Sample.missedInstance.resolves_of_owns
      Sample.quicFrame hvip (Or.inl (by rw [Sample.quicFrame_vipKey]; exact hmem))
    rw [hnone] at hsome
    cases hsome
  · have hx := Xdp.holds_parsed Sample.quicFrame Sample.missedInstance.maps.config
      Sample.counters fun _ => none
    have hy := Xdp.holds_parsed Sample.quicFrame (Sample.quicInstance 0).maps.config
      Sample.counters fun _ => none
    have hids := hsame _ _ hx hy
    have hmembers := (Sample.quicLoaded_vips other hb.1).2.2
    rw [marlinLbSelectBackend_id, marlinLbSelectBackend_id, Sample.quicFrame_steeredId rfl ha hx,
      Sample.quicFrame_steeredId rfl hb hy, Sample.missedInstance_upId, Sample.quicInstance_upId,
      Option.some_or, Option.none_or, (Sample.quicInstance 0).selectByHash_id hb, if_neg hmembers,
      Option.some.injEq] at hids
    obtain ⟨-, -, b, hmem, -, hwinner⟩ := Sample.quicLoaded.checked.winner_mem Sample.score hb.1
      (Sample.quicFrame.parsed (Sample.quicInstance 0).maps.config).tuple hmembers
    exact (Sample.quicLoaded_ids b hmem).1 (hwinner.symm.trans hids.symm)

end Marlin
