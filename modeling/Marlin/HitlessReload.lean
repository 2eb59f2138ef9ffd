import Marlin.Marlind.FwdGenInput
import Marlin.Underway

/-!
# Hitless reloads

A packet whose reads find the same before and after a reload is treated the same at every
moment of it, each of its reads made at a moment of its own.  So a reload that adds, removes
or changes backends concerns the frames that one of these backends serves, before or after,
by their row or by their connection ID, and no others.
-/

namespace Marlin

open Marlin.Library Marlin.Library.Table

/-! ## Edited backends -/

/-- The entry differs at most in which of the backends `ids` are its members. -/
structure ConfVip.EditsOnly (ids : List Nat) (v w : ConfVip) : Prop where
  keys : w.keys = v.keys
  vipMeta : w.vipMeta = v.vipMeta
  tableSeed : w.tableSeed = v.tableSeed
  members : (w.members.filter (·.backendId ∉ ids)).Perm (v.members.filter (·.backendId ∉ ids))

/-- The configuration differs at most in the backends `ids` and in where they are members. -/
structure MarlinConf.EditsOnly (ids : List Nat) (first second : MarlinConf) : Prop where
  inst : second.inst = first.inst
  acl : second.acl = first.acl
  ratelimit : second.ratelimit = first.ratelimit
  backends : (second.backends.filter (·.id ∉ ids)).Perm (first.backends.filter (·.id ∉ ids))
  vips : List.Forall₂ (ConfVip.EditsOnly ids) first.vips second.vips

theorem ConfVip.EditsOnly.symm {ids : List Nat} {v w : ConfVip} (h : v.EditsOnly ids w) :
    w.EditsOnly ids v :=
  ⟨h.keys.symm, h.vipMeta.symm, h.tableSeed.symm, h.members.symm⟩

namespace MarlinConf.EditsOnly

variable {ids : List Nat} {first second : MarlinConf} (h : first.EditsOnly ids second)

include h

theorem symm : second.EditsOnly ids first :=
  ⟨h.inst.symm, h.acl.symm, h.ratelimit.symm, h.backends.symm,
    h.vips.flip.imp fun _ _ hvip => hvip.symm⟩

theorem mem_backends {b : ConfBackend} (hid : b.id ∉ ids) :
    b ∈ second.backends ↔ b ∈ first.backends := by
  have hmem := h.backends.mem_iff (a := b)
  simpa [List.mem_filter, hid] using hmem

theorem keys_eq : second.vips.map ConfVip.keys = first.vips.map ConfVip.keys := by
  have hvips := h.vips
  generalize first.vips = vs, second.vips = ws at hvips
  induction hvips with
  | nil => rfl
  | cons hhead _ ih => rw [List.map_cons, List.map_cons, ih, hhead.keys]

theorem length_eq : second.vips.length = first.vips.length := h.vips.length_eq.symm

theorem get {i : Nat} {v : ConfVip} (hv : first.vips[i]? = some v) :
    ∃ w, second.vips[i]? = some w ∧ v.EditsOnly ids w := by
  obtain ⟨hi, rfl⟩ := List.getElem?_eq_some_iff.mp hv
  have hi' : i < second.vips.length := h.length_eq ▸ hi
  exact ⟨_, List.getElem?_eq_getElem hi', h.vips.get hi hi'⟩

theorem maxFrame (ifs : Interfaces) : ifs.maxFrame second = ifs.maxFrame first := by
  rw [Interfaces.maxFrame, Interfaces.maxFrame, h.inst]

end MarlinConf.EditsOnly

theorem ConfVip.EditsOnly.mem_members {ids : List Nat} {v w : ConfVip} (h : v.EditsOnly ids w)
    {m : ConfMember} (hid : m.backendId ∉ ids) : m ∈ w.members ↔ m ∈ v.members := by
  have hmem := h.members.mem_iff (a := m)
  simpa [List.mem_filter, hid] using hmem

/-! ## Rows -/

theorem winnerId_agree {T : Type} [LinearOrder T] {f : FwdGenMember → T} {ids : List Nat}
    {ms ns : List FwdGenMember} (hkept : ∀ m, m.backendId ∉ ids → (m ∈ ms ↔ m ∈ ns))
    (hms : ms ≠ []) (hns : ns ≠ [])
    (hold : winnerId (elect f FwdGenMember.backendId ms) ∉ ids)
    (hnew : winnerId (elect f FwdGenMember.backendId ns) ∉ ids) :
    winnerId (elect f FwdGenMember.backendId ns) =
      winnerId (elect f FwdGenMember.backendId ms) := by
  obtain ⟨a, ha, -, -⟩ := elect_spec f FwdGenMember.backendId hms
  obtain ⟨b, hb, -, -⟩ := elect_spec f FwdGenMember.backendId hns
  rw [ha] at hold ⊢
  rw [hb] at hnew ⊢
  exact (elect_agree hkept ha hb hold hnew).symm

section Score

variable {S : Type} [LinearOrder S] (score : UInt64 → Nat → S)

/-- Where only the members `ids` change, a row that none of them wins keeps its winner. -/
theorem fwdGenBlock_agree (tableSeed : Key16) {ids : List Nat} {ms ns : List FwdGenMember}
    (hkept : ∀ m, m.backendId ∉ ids → (m ∈ ms ↔ m ∈ ns)) (hpath : equalWeight ns = equalWeight ms)
    (row : Nat) (hold : fwdGenBlock score tableSeed ms row ∉ ids)
    (hnew : fwdGenBlock score tableSeed ns row ∉ ids) :
    fwdGenBlock score tableSeed ns row = fwdGenBlock score tableSeed ms row := by
  -- a list with a winner outside `ids` has that winner in common with the other list
  have hboth : ∀ {xs ys : List FwdGenMember}, (∀ m, m.backendId ∉ ids → (m ∈ xs ↔ m ∈ ys)) →
      fwdGenBlock score tableSeed xs row ∉ ids → xs ≠ [] → ys ≠ [] := by
    intro xs ys hmem hwin hne
    obtain ⟨m, hm, hid⟩ := fwdGenBlock_mem score tableSeed hne row
    rw [hid] at hwin
    exact List.ne_nil_of_mem ((hmem m hwin).mp hm)
  by_cases hms : ms = []
  · have hns : ns = [] := by
      by_contra hne
      exact hboth (fun m hm => (hkept m hm).symm) hnew hne hms
    rw [hms, hns]
  · have hns := hboth hkept hold hms
    have hms' : ms.isEmpty = false := by simpa using hms
    have hns' : ns.isEmpty = false := by simpa using hns
    simp only [fwdGenBlock, hms', hns', hpath, Bool.false_eq_true, if_false] at hold hnew ⊢
    split
    · next heq =>
      rw [if_pos heq] at hold hnew
      exact winnerId_agree hkept hms hns hold hnew
    · next heq =>
      rw [if_neg heq] at hold hnew
      exact winnerId_agree hkept hms hns hold hnew

end Score

section Members

variable {ids : List Nat} {first second : MarlinConf}

theorem MarlinConf.EditsOnly.genMembers_sub (h : first.EditsOnly ids second)
    (hfirst : first.Accepted) (hsecond : second.Accepted) {v w : ConfVip} (hv : v ∈ first.vips)
    (hvw : v.EditsOnly ids w) {g : FwdGenMember} (hid : g.backendId ∉ ids)
    (hg : g ∈ genMembers first v) : g ∈ genMembers second w := by
  obtain ⟨m, hm, rfl⟩ := List.mem_map.mp hg
  obtain ⟨b, hb, -, hbid⟩ := hfirst.valid.resolved v hv m hm
  rw [genMember_eq hfirst.valid.ids_nodup hb hbid] at hid ⊢
  have hb' := (h.mem_backends hid).mpr hb
  have hmid : m.backendId ∉ ids := hbid ▸ hid
  rw [← genMember_eq hsecond.valid.ids_nodup hb' hbid]
  exact List.mem_map_of_mem ((hvw.mem_members hmid).mpr hm)

theorem MarlinConf.EditsOnly.mem_genMembers (h : first.EditsOnly ids second)
    (hfirst : first.Accepted) (hsecond : second.Accepted) {v w : ConfVip} (hv : v ∈ first.vips)
    (hw : w ∈ second.vips) (hvw : v.EditsOnly ids w) {g : FwdGenMember}
    (hid : g.backendId ∉ ids) : g ∈ genMembers first v ↔ g ∈ genMembers second w :=
  ⟨h.genMembers_sub hfirst hsecond hv hvw hid, h.symm.genMembers_sub hsecond hfirst hw hvw.symm hid⟩

end Members

/-! ## Packets that none of the edited backends serves -/

def Frame.vipKey (frame : Frame) : VipKey := marlinLbVipKey (frame.parsed 0)

theorem Frame.vipKey_parsed (frame : Frame) (cfg : MarlinConfig) :
    marlinLbVipKey (frame.parsed cfg) = frame.vipKey :=
  frame.parsed_vipKey 0 cfg

/-- None of the backends `ids` serves the frame, by its row or by its connection ID. -/
structure Frame.Avoids {S : Type} [LinearOrder S] (frame : Frame) (score : UInt64 → Nat → S)
    (host : Host) (ids : List Nat) (conf : MarlinConf) : Prop where
  row : ∀ vip ∈ conf.vips, conf.Owns vip frame.vipKey →
    conf.winner score vip (frame.parsed 0).tuple ∉ ids
  cid : ∀ vip ∈ conf.vips, conf.Owns vip frame.vipKey → vip.vipMeta.flags &&& vipQuic ≠ 0 →
    (frame.parsed 0).flags &&& marlinCtxFQuic ≠ 0 →
      (marlinLbQuicDecode host vip.vipMeta (frame.entry 0)).1 ∉ ids

/-- The members of each entry are scored the same way in both configurations. -/
def MarlinConf.SamePaths (first second : MarlinConf) : Prop :=
  List.Forall₂ (fun v w => equalWeight (second.ownMembers w) = equalWeight (first.ownMembers v))
    first.vips second.vips

section Maps

variable {S : Type} [LinearOrder S] {score : UInt64 → Nat → S} {ifs : Interfaces}
  {first second : MarlinConf} {num : Nat → Nat} {start origin held : Maps} {ids : List Nat}

theorem Carries.selectVip (h : Carries score ifs first num start) (hfirst : first.Accepted)
    {pkt : MarlinCtx} {vip : VipMeta} (hvip : marlinLbSelectVip start pkt = some vip) :
    ∃ i v, first.vips[i]? = some v ∧ first.Owns v (marlinLbVipKey pkt) ∧
      vip = (v.withNum (num i)).vipMeta := by
  simp only [marlinLbSelectVip] at hvip
  cases hexact : start.vipMap.lookup (marlinLbVipKey pkt) with
  | some hit =>
      rw [hexact] at hvip
      cases hvip
      obtain ⟨i, v, hi, hkey, hmeta⟩ := (h.lookup_iff hfirst).mp hexact
      exact ⟨i, v, hi, Or.inl hkey, hmeta⟩
  | none =>
      rw [hexact] at hvip
      obtain ⟨i, v, hi, hkey, hmeta⟩ := (h.lookup_iff hfirst).mp hvip
      refine ⟨i, v, hi, Or.inr ⟨fun hmem => ?_, hkey⟩, hmeta⟩
      obtain ⟨u, hu, hown⟩ := List.mem_flatMap.mp hmem
      obtain ⟨j, hj⟩ := List.getElem?_of_mem hu
      rw [(h.lookup_iff hfirst).mpr ⟨j, u, hj, hown, rfl⟩] at hexact
      cases hexact

theorem Carries.fkey (h : Carries score ifs first num start) {i : Nat} {v : ConfVip}
    (hi : first.vips[i]? = some v) (hfirst : first.Accepted) (pkt : MarlinCtx) :
    start.fwdTable (marlinLbFkey pkt (v.withNum (num i)).vipMeta) =
      first.winner score v pkt.tuple := by
  have hmem := List.mem_of_getElem? hi
  have hnum := h.num_lt i (List.getElem?_eq_some_iff.mp hi).1
  have hrow : pkt.tuple.row v.vipMeta < tableSize := Nat.mod_lt _ tableSize_pos
  rw [marlinLbFkey_eq hnum]
  change start.fwdRow (num i) (pkt.tuple.row v.vipMeta) = _
  rw [h.rows i v hi _ hrow, hfirst.checked.genMembers_eq hmem]
  rfl

section Edited

variable (hedit : first.EditsOnly ids second)

include hedit

theorem MarlinConf.EditsOnly.carries (hfirst : first.Accepted)
    (hstart : Carries score ifs first num start) (hheld : Completed score ifs second start held) :
    Carries score ifs second num held := by
  obtain ⟨hnum, -⟩ := vipAlloc_settled (hstart.settled hfirst)
  refine hheld.carries.congr fun i hi => ?_
  rw [hedit.keys_eq]
  refine hnum i ?_
  rw [List.length_map, ← hedit.length_eq]
  exact hi

theorem MarlinConf.EditsOnly.lookup_sub (hfirst : first.Accepted) (hsecond : second.Accepted)
    (hstart : Carries score ifs first num start) (hheld : Carries score ifs second num held)
    {key : VipKey} {vip : VipMeta} (hlookup : start.vipMap.lookup key = some vip) :
    held.vipMap.lookup key = some vip := by
  obtain ⟨i, v, hi, hkey, rfl⟩ := (hstart.lookup_iff hfirst).mp hlookup
  obtain ⟨w, hw, hvw⟩ := hedit.get hi
  refine (hheld.lookup_iff hsecond).mpr ⟨i, w, hw, hvw.keys ▸ hkey, ?_⟩
  simp only [ConfVip.withNum, hvw.vipMeta]

theorem MarlinConf.EditsOnly.lookup_eq (hfirst : first.Accepted) (hsecond : second.Accepted)
    (hstart : Carries score ifs first num start) (hheld : Carries score ifs second num held)
    (key : VipKey) : held.vipMap.lookup key = start.vipMap.lookup key :=
  Option.ext fun _ =>
    ⟨hedit.symm.lookup_sub hsecond hfirst hheld hstart,
      hedit.lookup_sub hfirst hsecond hstart hheld⟩

theorem MarlinConf.EditsOnly.slot_eq (hstart : Completed score ifs first origin start)
    (hheld : Completed score ifs second start held) {id : Nat} (hid : id ∉ ids)
    (hne : id ≠ marlinNoBackend) (hlt : id < maxBackends) :
    held.backends id = start.backends id := by
  by_cases hconf : ∃ b ∈ first.backends, b.id = id
  · obtain ⟨b, hb, rfl⟩ := hconf
    rw [hheld.backends b ((hedit.mem_backends hid).mpr hb), hstart.backends b hb]
  · have hnone : ∀ b ∈ first.backends, b.id ≠ id := fun b hb heq => hconf ⟨b, hb, heq⟩
    have hmem : id ∈ List.range' 1 (maxBackends - 1) := by
      rw [List.mem_range'_1]
      simp only [marlinNoBackend, maxBackends] at *
      omega
    refine hheld.slots id (fun b hb heq => ?_) (hstart.retired id hmem hnone)
    exact hnone b ((hedit.mem_backends (heq ▸ hid)).mp hb) heq

theorem MarlinConf.EditsOnly.winner_eq (hfirst : first.Accepted) (hsecond : second.Accepted)
    (hpaths : first.SamePaths second) {i : Nat} {v w : ConfVip} (hv : first.vips[i]? = some v)
    (hw : second.vips[i]? = some w) (tuple : PacketTuple)
    (hold : first.winner score v tuple ∉ ids) (hnew : second.winner score w tuple ∉ ids) :
    second.winner score w tuple = first.winner score v tuple := by
  obtain ⟨w', hw', hvw⟩ := hedit.get hv
  obtain rfl : w' = w := Option.some.inj (hw'.symm.trans hw)
  have hv' := List.mem_of_getElem? hv
  have hmem := List.mem_of_getElem? hw
  obtain ⟨hi, rfl⟩ := List.getElem?_eq_some_iff.mp hv
  obtain ⟨hi', rfl⟩ := List.getElem?_eq_some_iff.mp hw
  have hrow : tuple.row (second.vips[i]).vipMeta = tuple.row (first.vips[i]).vipMeta := by
    rw [hvw.vipMeta]
  rw [MarlinConf.winner] at hold hnew ⊢
  rw [hvw.tableSeed, hrow] at hnew ⊢
  have hpath : equalWeight (second.ownMembers second.vips[i]) =
      equalWeight (first.ownMembers first.vips[i]) := hpaths.get hi hi'
  refine fwdGenBlock_agree score _ (fun g hg => ?_) hpath _ hold hnew
  rw [← hfirst.checked.genMembers_eq hv', ← hsecond.checked.genMembers_eq hmem]
  exact hedit.mem_genMembers hfirst hsecond hv' hmem hvw hg

theorem MarlinConf.EditsOnly.owns_iff {v w : ConfVip} (hvw : v.EditsOnly ids w) (key : VipKey) :
    second.Owns w key ↔ first.Owns v key := by
  have hkeys : second.keys = first.keys := by
    rw [MarlinConf.keys, MarlinConf.keys, List.flatMap_def, List.flatMap_def, hedit.keys_eq]
  rw [MarlinConf.Owns, MarlinConf.Owns, hkeys, hvw.keys]

theorem MarlinConf.EditsOnly.resolves (hfirst : first.Accepted)
    (hstart : Carries score ifs first num start) {frame : Frame} {cfg : MarlinConfig}
    {vip : VipMeta} (hvip : marlinLbSelectVip start (frame.parsed cfg) = some vip) :
    ∃ i v w, first.vips[i]? = some v ∧ second.vips[i]? = some w ∧ v.EditsOnly ids w ∧
      first.Owns v frame.vipKey ∧ vip = (v.withNum (num i)).vipMeta := by
  obtain ⟨i, v, hi, hown, hmeta⟩ := hstart.selectVip hfirst hvip
  obtain ⟨w, hw, hvw⟩ := hedit.get hi
  rw [frame.vipKey_parsed] at hown
  exact ⟨i, v, w, hi, hw, hvw, hown, hmeta⟩

/-- The row of a frame keeps its winner, which is none of the edited backends. -/
theorem MarlinConf.EditsOnly.row_eq (hfirst : first.Accepted) (hsecond : second.Accepted)
    (hpaths : first.SamePaths second) (hstart : Carries score ifs first num start)
    (hheld : Carries score ifs second num held) {host : Host} {frame : Frame}
    (hold : frame.Avoids score host ids first) (hnew : frame.Avoids score host ids second)
    {cfg : MarlinConfig} {vip : VipMeta}
    (hvip : marlinLbSelectVip start (frame.parsed cfg) = some vip) :
    start.fwdTable (marlinLbFkey (frame.parsed cfg) vip) ∉ ids ∧
      held.fwdTable (marlinLbFkey (frame.parsed cfg) vip) =
        start.fwdTable (marlinLbFkey (frame.parsed cfg) vip) := by
  obtain ⟨i, v, w, hi, hw, hvw, hown, rfl⟩ := hedit.resolves hfirst hstart hvip
  have hwin := hold.row v (List.mem_of_getElem? hi) hown
  have hwin' := hnew.row w (List.mem_of_getElem? hw) ((hedit.owns_iff hvw _).mpr hown)
  have hsame : (w.withNum (num i)).vipMeta = (v.withNum (num i)).vipMeta := by
    simp only [ConfVip.withNum, hvw.vipMeta]
  have hbefore := hstart.fkey hi hfirst (frame.parsed cfg)
  have hafter := hheld.fkey hw hsecond (frame.parsed cfg)
  rw [hsame] at hafter
  rw [frame.parsed_tuple 0] at hbefore hafter
  refine ⟨hbefore ▸ hwin, ?_⟩
  rw [hbefore, hafter, hedit.winner_eq hfirst hsecond hpaths hi hw _ hwin hwin']

/-- A frame that none of the edited backends serves reads the same before and after. -/
theorem MarlinConf.EditsOnly.sameReads (hfirst : first.Accepted) (hsecond : second.Accepted)
    (hpaths : first.SamePaths second) (hstart : Completed score ifs first origin start)
    (hheld : Completed score ifs second start held) {host : Host} {frame : Frame}
    (hold : frame.Avoids score host ids first) (hnew : frame.Avoids score host ids second) :
    SameReads host frame start fun _ => held := by
  obtain ⟨num, hcarries⟩ : ∃ num, Carries score ifs first num start := ⟨_, hstart.carries⟩
  have hcarries' := hedit.carries hfirst hcarries hheld
  have hlookup := hedit.lookup_eq hfirst hsecond hcarries hcarries'
  have hslot : ∀ {id}, id ∉ ids → id ≠ marlinNoBackend → id < maxBackends →
      held.backends id = start.backends id := hedit.slot_eq hstart hheld
  have hrow : ∀ vip, marlinLbSelectVip start (frame.parsed start.config) = some vip →
      start.fwdTable (marlinLbFkey (frame.parsed start.config) vip) ∉ ids ∧
        held.fwdTable (marlinLbFkey (frame.parsed start.config) vip) =
          start.fwdTable (marlinLbFkey (frame.parsed start.config) vip) := fun vip hvip =>
    hedit.row_eq hfirst hsecond hpaths hcarries hcarries' hold hnew hvip
  refine
    { config := ⟨start.config.aclLists, ?_⟩
      verdict := ?_
      vip := fun key _ => hlookup key
      anyPort := fun key _ _ => hlookup _
      quicSlot := ?_
      row := ?_
      slot := ?_
      txPort := ?_ }
  · rw [hcarries'.config, hcarries.config, hedit.maxFrame]
    simp only [configValue, hedit.inst, hedit.acl, hedit.ratelimit]
  · have hverdict : held.aclVerdict (frame.parsed 0) = start.aclVerdict (frame.parsed 0) := by
      rw [hcarries'.rulesApplied.aclVerdict, hcarries.rulesApplied.aclVerdict, hedit.acl]
    rw [frame.parsed_withCfg 0 start.config, frame.parsed_withCfg 0 held.config]
    exact hverdict
  · rintro r - vip hvip hquic hflag id rfl hne hlt
    obtain ⟨i, v, w, hi, -, -, hown, rfl⟩ := hedit.resolves hfirst hcarries hvip
    have hsame := frame.entry_samePacket 0 start.config
    have hflag' : (frame.parsed 0).flags &&& marlinCtxFQuic ≠ 0 := hsame.flags ▸ hflag
    refine hslot ?_ hne hlt
    rw [marlinLbQuicDecode_samePacket host _ hsame]
    exact hold.cid v (List.mem_of_getElem? hi) hown hquic hflag'
  · rintro vip hvip - key rfl
    exact (hrow vip hvip).2
  · rintro vip hvip - id rfl hne hlt
    exact hslot (hrow vip hvip).1 hne hlt
  · intro vip be hvip hbe query hquery
    rw [hcarries'.mem_txPorts, hcarries.mem_txPorts]
    simp only [Interfaces.txPorts, hedit.inst]

end Edited

end Maps

/-! ## A backend that is removed -/

namespace Sample

def lastToml : Toml :=
  tomlTable [
    ("instance", tomlTable [("interface", tomlStr "eth0"), ("tunnel_src", tomlStr "10.0.0.9")]),
    ("backend", .array [tomlTable [("name", tomlStr "b2"), ("id", .int64 6),
      ("addr", tomlStr "10.0.0.2"), ("mode", tomlStr "ipip")]]),
    ("vip", .array [tomlTable [("addr", tomlStr "192.0.2.1"), ("port", .int64 80),
      ("proto", tomlStr "tcp"),
      ("hash_key", tomlStr "000102030405060708090a0b0c0d0e0f"),
      ("table_seed", tomlStr "0f0e0d0c0b0a09080706050403020100"),
      ("members", .array [tomlTable [("backend", tomlStr "b2"), ("weight", .int64 1)]])]])]

theorem lastToml_size : lastToml.size < 2 ^ 31 := by
  decide

def lastFile : ConfFile := file lastToml lastToml_size

def lastConf : MarlinConf :=
  loadFile lastFile (by decide +kernel)

theorem apartConf_accepted : apartConf.Accepted := loadFile_accepted _ _

theorem lastConf_accepted : lastConf.Accepted := loadFile_accepted _ _

structure Bare (conf : MarlinConf) : Prop where
  acl : conf.acl = ⟨false, [], [], [], []⟩
  txPorts : conf.inst.txPorts = []
  keys : ∀ b ∈ conf.backends, BackendKeys.layout.ofConf b < maxBackends

theorem apartConf_bare : Bare apartConf := by
  have h : apartConf.acl = ⟨false, [], [], [], []⟩ ∧ apartConf.inst.txPorts = [] ∧
      ∀ b ∈ apartConf.backends, BackendKeys.layout.ofConf b < maxBackends := by
    decide +kernel
  exact ⟨h.1, h.2.1, h.2.2⟩

theorem lastConf_bare : Bare lastConf := by
  have h : lastConf.acl = ⟨false, [], [], [], []⟩ ∧ lastConf.inst.txPorts = [] ∧
      ∀ b ∈ lastConf.backends, BackendKeys.layout.ofConf b < maxBackends := by
    decide +kernel
  exact ⟨h.1, h.2.1, h.2.2⟩

theorem Bare.returns {conf : MarlinConf} (h : Bare conf) (hconf : conf.Accepted) {start : Maps}
    (hstart : start.Bounded) : (reconcileApply score .layout conf ifacesEnv 0 start).result =
      some (conf.assigned start) := by
  have hsuits : ifaces.Suits conf := by
    refine ⟨?_, Or.inr (Or.inr (ifaces_maxFrame _))⟩
    rw [h.txPorts]
    simp
  have hroom : ifaces.Room conf start := by
    constructor
    · rw [Interfaces.txPorts, h.txPorts]
      exact fits_nil hstart.aside.txPorts
    · rw [h.acl]
      exact fits_nil hstart.aside.aclAllowV4
    · rw [h.acl]
      exact fits_nil hstart.aside.aclBlockV4
    · rw [h.acl]
      exact fits_nil hstart.aside.aclAllowV6
    · rw [h.acl]
      exact fits_nil hstart.aside.aclBlockV6
  exact hconf.returns score BackendKeys.layout_sound ifacesEnv 0
    (hconf.feasible ifacesEnv_on.answers (ifacesEnv_onlyFull h.keys) hsuits hstart hroom)

theorem Bare.completed {conf : MarlinConf} (h : Bare conf) (hconf : conf.Accepted) {start : Maps}
    (hstart : start.Bounded) : Completed score ifaces conf start
      (reconcileApply score .layout conf ifacesEnv 0 start).store :=
  hconf.completed ifacesEnv_on (ifacesEnv_onlyFull h.keys) 0 hstart (h.returns hconf hstart)

theorem lastConf_edits : apartConf.EditsOnly [5] lastConf ∧ apartConf.SamePaths lastConf := by
  have hconf : lastConf.inst = apartConf.inst ∧ lastConf.acl = apartConf.acl ∧
      lastConf.ratelimit = apartConf.ratelimit ∧
      (lastConf.backends.filter (·.id ∉ [5])).Perm (apartConf.backends.filter (·.id ∉ [5])) ∧
      apartConf.vips.length = 1 ∧ lastConf.vips.length = 1 := by
    decide +kernel
  have hvip : ∀ v ∈ apartConf.vips, ∀ w ∈ lastConf.vips, w.keys = v.keys ∧
      w.vipMeta = v.vipMeta ∧ w.tableSeed = v.tableSeed ∧
      (w.members.filter (·.backendId ∉ [5])).Perm (v.members.filter (·.backendId ∉ [5])) ∧
      equalWeight (lastConf.ownMembers w) = equalWeight (apartConf.ownMembers v) := by
    decide +kernel
  obtain ⟨hinst, hacl, hratelimit, hbackends, hold, hnew⟩ := hconf
  obtain ⟨v, hv⟩ := List.length_eq_one_iff.mp hold
  obtain ⟨w, hw⟩ := List.length_eq_one_iff.mp hnew
  obtain ⟨hkeys, hmeta, hseed, hmembers, hpath⟩ := hvip v (by simp [hv]) w (by simp [hw])
  refine ⟨⟨hinst, hacl, hratelimit, hbackends, ?_⟩, ?_⟩
  · rw [hv, hw]
    exact .cons ⟨hkeys, hmeta, hseed, hmembers⟩ .nil
  · rw [MarlinConf.SamePaths, hv, hw]
    exact .cons hpath .nil

theorem segment_avoids : segment.Avoids score host [5] apartConf ∧
    segment.Avoids score host [5] lastConf := by
  have hold : ∀ vip ∈ apartConf.vips, vip.vipMeta.flags &&& vipQuic = 0 ∧
      apartConf.winner score vip (segment.parsed 0).tuple ∉ [5] := by
    decide +kernel
  have hnew : ∀ vip ∈ lastConf.vips, vip.vipMeta.flags &&& vipQuic = 0 ∧
      lastConf.winner score vip (segment.parsed 0).tuple ∉ [5] := by
    decide +kernel
  exact ⟨⟨fun vip hvip _ => (hold vip hvip).2,
      fun vip hvip _ hquic => absurd (hold vip hvip).1 hquic⟩,
    ⟨fun vip hvip _ => (hnew vip hvip).2, fun vip hvip _ hquic => absurd (hnew vip hvip).1 hquic⟩⟩

def cutEnv : Env :=
  { ifacesEnv with
    writeFault := (faultyEnv 3).writeFault
    deleteFault := (faultyEnv 3).deleteFault }

theorem cutEnv_on : cutEnv.On ifaces := ⟨fun _ _ => rfl, fun _ => rfl, fun _ _ => rfl⟩

theorem cutEnv_honest : cutEnv.Honest :=
  ⟨(faultyEnv_honest 3).reads, (faultyEnv_honest 3).deletes⟩

def apartMaps : Maps :=
  afterAttempts score .layout Maps.fresh [⟨ifacesEnv, apartConf, apartConf_accepted⟩]

theorem apartMaps_eq :
    apartMaps = (reconcileApply score .layout apartConf ifacesEnv 0 Maps.fresh).store := by
  rw [apartMaps, afterAttempts_one]

theorem apartMaps_bounded : apartMaps.Bounded := by
  rw [apartMaps_eq]
  exact apartConf_accepted.bounded score BackendKeys.layout_sound ifacesEnv 0 Maps.fresh_bounded

theorem apartMaps_completed : Completed score ifaces apartConf Maps.fresh apartMaps := by
  rw [apartMaps_eq]
  exact apartConf_bare.completed apartConf_accepted Maps.fresh_bounded

/-- All reads come before the reload that is cut short, but for the last two. -/
def tornMoments (r : MapRead) : Maps :=
  if r = .row ∨ r = .slot then (reconcileApply score .layout lastConf cutEnv 0 apartMaps).store
  else apartMaps

theorem tornMoments_moment (r : MapRead) : Moment apartMaps
    (reconcileApply score .layout lastConf cutEnv 0 apartMaps).steps (tornMoments r) := by
  have hmeets := lastConf_accepted.meets score BackendKeys.layout_sound cutEnv 0 apartMaps
  rw [tornMoments]
  split
  · exact Moment.last hmeets.linked
  · exact Or.inl rfl

end Sample

/-! ## Packets that a reload does not concern -/

/--
A packet whose reads find the same before a reload and after it is treated as if there were
no reload: wherever the reload has got to, whichever of its map calls failed, and whichever of
its moments each single read of the packet falls on.
-/
theorem reload_hitless {S : Type} [LinearOrder S] (score : UInt64 → Nat → S)
    {first second : MarlinConf} (hfirst : first.Accepted) (hsecond : second.Accepted)
    {ifs : Interfaces} {num : Nat → Nat} {start : Maps} (hstart : Carries score ifs first num start)
    {whole : Env} (hwhole : whole.On ifs) (hfull : whole.OnlyFull second) (m : Nat)
    {out : MarlinConf}
    (hout : (reconcileApply score .layout second whole m start).result = some out)
    {host : Host} {frame : Frame} (hsame : SameReads host frame start fun _ =>
      (reconcileApply score .layout second whole m start).store)
    {e : Env} (hon : e.On ifs) (hhonest : e.Honest) (n : Nat) {seen : Moments}
    (hseen : ∀ r, Moment start (reconcileApply score .layout second e n start).steps (seen r))
    (counters : Counters) (buckets : RatelimitMap) :
    SameOutcome (xdpMainAt host seen frame counters buckets)
      (xdpMain host start frame counters buckets) := by
  have hheld := hsecond.completed hwhole hfull m (hstart.bounded hfirst) hout
  have hreads := hsame.underway hstart hheld fun r =>
    hsecond.underway hon hhonest n hheld (hseen r)
  exact hreads.sameOutcome counters buckets

theorem reload_hitless_segment :
    SameOutcome (xdpMainAt Sample.host Sample.tornMoments Sample.segment Sample.counters
        fun _ => none)
      (xdpMain Sample.host Sample.apartMaps Sample.segment Sample.counters fun _ => none) := by
  have hout := Sample.lastConf_bare.returns Sample.lastConf_accepted Sample.apartMaps_bounded
  have hfull := Sample.ifacesEnv_onlyFull Sample.lastConf_bare.keys
  have hheld := Sample.lastConf_bare.completed Sample.lastConf_accepted Sample.apartMaps_bounded
  have hsame := Sample.lastConf_edits.1.sameReads Sample.apartConf_accepted
    Sample.lastConf_accepted Sample.lastConf_edits.2 Sample.apartMaps_completed hheld
    Sample.segment_avoids.1 Sample.segment_avoids.2
  exact reload_hitless Sample.score Sample.apartConf_accepted Sample.lastConf_accepted
    Sample.apartMaps_completed.carries Sample.ifacesEnv_on hfull 0 hout hsame Sample.cutEnv_on
    Sample.cutEnv_honest 0 Sample.tornMoments_moment Sample.counters fun _ => none

/--
A reload that only adds, removes or changes the backends `ids` leaves every frame as it was
that none of them serves, before or after, where each entry is scored the same way in both:
wherever the reload has got to, whichever of its map calls failed, and whichever of its moments
each single read of the packet falls on.
-/
theorem reload_spares {S : Type} [LinearOrder S] (score : UInt64 → Nat → S)
    {first second : MarlinConf} (hfirst : first.Accepted) (hsecond : second.Accepted)
    {ids : List Nat} (hedit : first.EditsOnly ids second) (hpaths : first.SamePaths second)
    {ifs : Interfaces} {origin : Maps} (horigin : origin.Bounded) {before : Env}
    (hbefore : before.On ifs) (hfull : before.OnlyFull first) (k : Nat) {out : MarlinConf}
    (hout : (reconcileApply score .layout first before k origin).result = some out) {start : Maps}
    (hstart : start = (reconcileApply score .layout first before k origin).store)
    {whole : Env} (hwhole : whole.On ifs) (hfull' : whole.OnlyFull second) (m : Nat)
    {out' : MarlinConf}
    (hout' : (reconcileApply score .layout second whole m start).result = some out')
    {host : Host} {frame : Frame} (hold : frame.Avoids score host ids first)
    (hnew : frame.Avoids score host ids second) {e : Env} (hon : e.On ifs) (hhonest : e.Honest)
    (n : Nat) {seen : Moments}
    (hseen : ∀ r, Moment start (reconcileApply score .layout second e n start).steps (seen r))
    (counters : Counters) (buckets : RatelimitMap) :
    SameOutcome (xdpMainAt host seen frame counters buckets)
      (xdpMain host start frame counters buckets) := by
  subst hstart
  have hstart := hfirst.completed hbefore hfull k horigin hout
  have hbounded := hstart.carries.bounded hfirst
  have hheld := hsecond.completed hwhole hfull' m hbounded hout'
  have hsame := hedit.sameReads hfirst hsecond hpaths hstart hheld hold hnew
  have hreads := hsame.underway hstart.carries hheld fun r =>
    hsecond.underway hon hhonest n hheld (hseen r)
  exact hreads.sameOutcome counters buckets

theorem reload_spares_segment :
    SameOutcome (xdpMainAt Sample.host Sample.tornMoments Sample.segment Sample.counters
        fun _ => none)
      (xdpMain Sample.host Sample.apartMaps Sample.segment Sample.counters fun _ => none) := by
  have hout := Sample.apartConf_bare.returns Sample.apartConf_accepted Maps.fresh_bounded
  have hfull := Sample.ifacesEnv_onlyFull Sample.apartConf_bare.keys
  have hfull' := Sample.ifacesEnv_onlyFull Sample.lastConf_bare.keys
  have hout' := Sample.lastConf_bare.returns Sample.lastConf_accepted Sample.apartMaps_bounded
  exact reload_spares Sample.score Sample.apartConf_accepted Sample.lastConf_accepted
    Sample.lastConf_edits.1 Sample.lastConf_edits.2 Maps.fresh_bounded Sample.ifacesEnv_on hfull 0
    hout Sample.apartMaps_eq Sample.ifacesEnv_on hfull' 0 hout' Sample.segment_avoids.1
    Sample.segment_avoids.2 Sample.cutEnv_on Sample.cutEnv_honest 0 Sample.tornMoments_moment
    Sample.counters fun _ => none

end Marlin
