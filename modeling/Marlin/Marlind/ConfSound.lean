import Marlin.Marlind.ConfParse

/-!
# What a loaded configuration satisfies

Every rule of a parse function is read off its reports: where none is a rejection, the
value is well formed.  The rules that need the whole model come from `conf_check`.
-/

namespace Marlin

open ConfReport

/-! ## Parses without a rejection -/

section

variable {α β : Type}

@[simp] theorem Parsed.pure_val (a : α) : (pure a : Parsed α).val = a := rfl

@[simp] theorem Parsed.reject_val (a : α) (text : String) : (Parsed.reject a text).val = a := rfl

@[simp] theorem Parsed.bind_val (p : Parsed α) (f : α → Parsed β) :
    (p >>= f).val = (f p.val).val := rfl

end

/-- Unless the parse rejects something, its value satisfies `Q`. -/
def Parsed.Sound {α : Type} (p : Parsed α) (Q : α → Prop) : Prop := Quiet p.reports → Q p.val

namespace Parsed.Sound

variable {α β : Type} {Q : α → Prop}

theorem pure {a : α} (h : Q a) : Sound (Pure.pure a) Q := fun _ => h

theorem reject {a : α} {text : String} : Sound (.reject a text) Q := by
  intro h
  simp [Parsed.reject, isError] at h

theorem bind {p : Parsed α} {f : α → Parsed β} {M : α → Prop} {Q : β → Prop}
    (hp : Sound p M) (hf : ∀ a, M a → Sound (f a) Q) : Sound (p >>= f) Q := by
  intro h
  obtain ⟨hfirst, hrest⟩ := (quiet_append _ _).mp h
  exact hf p.val (hp hfirst) hrest

theorem next {p : Parsed α} {f : α → Parsed β} {Q : β → Prop} (hf : ∀ a, Sound (f a) Q) :
    Sound (p >>= f) Q :=
  bind (M := fun _ => True) (fun _ => trivial) fun a _ => hf a

theorem report {text : String} {k : Unit → Parsed β} {Q : β → Prop} :
    Sound (Parsed.report text >>= k) Q :=
  bind (M := fun _ => False) (fun h => by simp [Parsed.report, isError] at h) fun _ h => h.elim

theorem ite {c : Prop} [Decidable c] {p q : Parsed α} (hp : c → Sound p Q)
    (hq : ¬c → Sound q Q) : Sound (if c then p else q) Q := by
  by_cases hc : c
  · rw [if_pos hc]
    exact hp hc
  · rw [if_neg hc]
    exact hq hc

theorem collect {f : β → Nat → Parsed α} (h : ∀ x i, Sound (f x i) Q) (i : Nat) (xs : List β) :
    Sound (.collect f i xs) fun ys => ∀ y ∈ ys, Q y := by
  induction xs generalizing i with
  | nil => exact pure (by simp)
  | cons x xs ih =>
      refine bind (h x i) fun y hy => bind (ih (i + 1)) fun ys hys => pure ?_
      exact List.forall_mem_cons.mpr ⟨hy, hys⟩

end Parsed.Sound

theorem Parsed.length_collect {α β : Type} (f : α → Nat → Parsed β) (i : Nat) (xs : List α) :
    (Parsed.collect f i xs).val.length = xs.length := by
  induction xs generalizing i with
  | nil => rfl
  | cons x xs ih => exact congrArg (· + 1) (ih (i + 1))

/-! ## [instance] -/

structure ConfInstance.Parsed (inst : ConfInstance) : Prop where
  txPorts : inst.txPorts.length ≤ maxTxPorts
  maxFrame : inst.maxFrame ≤ 0xffff

theorem parseTxPortsFrom_length (room i : Nat) (elem : List Toml) :
    (parseTxPortsFrom room i elem).val.length ≤ room := by
  induction elem generalizing room i with
  | nil => cases room <;> exact Nat.zero_le _
  | cons t rest ih =>
      cases room with
      | zero => exact Nat.zero_le _
      | succ room =>
          have hskip := ih (room + 1) (i + 1)
          have htake := ih room (i + 1)
          cases t with
          | string bytes =>
              simp only [parseTxPortsFrom]
              split
              · exact hskip
              · exact Nat.succ_le_succ htake
          | _ => exact hskip

theorem parseInstanceTxPorts_length (tab : Toml) :
    (parseInstanceTxPorts tab).val.length ≤ maxTxPorts := by
  simp only [parseInstanceTxPorts]
  split
  · exact Nat.zero_le _
  · split <;> exact parseTxPortsFrom_length _ _ _
  · exact Nat.zero_le _

theorem parseMaxFrame_sound (tab : Toml) :
    (parseMaxFrame tab).Sound fun maxFrame => maxFrame.getD 0 ≤ 0xffff := by
  refine .next fun got => ?_
  cases got with
  | value val =>
      refine .ite (fun _ => .reject) fun hrange => .pure ?_
      simp only [Option.getD_some]
      omega
  | absent => exact .pure (Nat.zero_le _)
  | failed => exact .pure (Nat.zero_le _)

theorem parseInstance_sound (top : Toml) : (parseInstance top).Sound ConfInstance.Parsed := by
  simp only [parseInstance]
  split
  · refine .next fun iface => .next fun object => .next fun pinDir => .next fun tunnelSrc => ?_
    refine .bind (M := fun ports => ports.length ≤ maxTxPorts)
      (fun _ => parseInstanceTxPorts_length _) fun txPorts htx => ?_
    exact .bind (parseMaxFrame_sound _) fun maxFrame hframe => .pure ⟨htx, hframe⟩
  · exact .reject

def Toml.StatesZeroFrame (top : Toml) : Prop :=
  ∃ entries, top.get "instance" = some (.table entries) ∧
    (Toml.table entries).get "max_frame" = some (.int64 0)

def Toml.StatesZeroTunnelSrc (top : Toml) : Prop :=
  ∃ entries bytes, top.get "instance" = some (.table entries) ∧
    (Toml.table entries).get "tunnel_src" = some (.string bytes) ∧
    confParseIpv4 (CBuf.str bytes) = some 0

theorem parseMaxFrame_eq_zero (tab : Toml) :
    (parseMaxFrame tab).val = some 0 ↔ tab.get "max_frame" = some (.int64 0) := by
  cases h : tab.get "max_frame" with
  | none => simp [parseMaxFrame, getInt, h]
  | some value =>
      cases value with
      | int64 val =>
          simp only [parseMaxFrame, getInt, h, Parsed.bind_val, Parsed.pure_val]
          split
          · simp only [Parsed.reject_val, reduceCtorEq, Option.some.injEq, Toml.int64.injEq,
              false_iff]
            omega
          · simp only [Parsed.pure_val, Option.some.injEq, Toml.int64.injEq]
            omega
      | _ => simp [parseMaxFrame, getInt, h]

theorem parseTunnelSrc_eq_some (tab : Toml) (addr : Be32) :
    (parseTunnelSrc tab).val = some addr ↔ ∃ bytes, tab.get "tunnel_src" = some (.string bytes) ∧
      bytes.length < 64 ∧ confParseIpv4 (CBuf.str bytes) = some addr := by
  cases h : tab.get "tunnel_src" with
  | none => simp [parseTunnelSrc, getStr, h]
  | some value =>
      cases value with
      | string bytes =>
          simp only [parseTunnelSrc, getStr, h, Parsed.bind_val]
          by_cases hlen : bytes.length ≥ 64
          · simp [hlen, Nat.not_lt.mpr hlen]
          · rw [if_neg hlen]
            cases haddr : confParseIpv4 (CBuf.str bytes) with
            | none => simp [haddr]
            | some addr' =>
                simp [haddr]
                omega
      | _ => simp [parseTunnelSrc, getStr, h]

theorem parseInstance_states (top : Toml) :
    let inst := (parseInstance top).val
    (inst.maxFrameSet = true ∧ inst.maxFrame = 0 ↔ top.StatesZeroFrame) ∧
      (inst.tunnelSrcSet = true → (inst.tunnelSrc = 0 ↔ top.StatesZeroTunnelSrc)) := by
  simp only [parseInstance]
  split
  · rename_i entries hget
    simp only [Parsed.bind_val, Parsed.pure_val]
    refine ⟨?_, ?_⟩
    · have hzero := parseMaxFrame_eq_zero (.table entries)
      rw [Toml.StatesZeroFrame]
      constructor
      · rintro ⟨hset, hvalue⟩
        obtain ⟨maxFrame, hmax⟩ := Option.isSome_iff_exists.mp hset
        rw [hmax, Option.getD_some] at hvalue
        exact ⟨entries, hget, hzero.mp (hvalue ▸ hmax)⟩
      · rintro ⟨entries', hget', hstated⟩
        cases hget.symm.trans hget'
        rw [hzero.mpr hstated]
        exact ⟨rfl, rfl⟩
    · intro hset
      obtain ⟨addr, haddr⟩ := Option.isSome_iff_exists.mp hset
      rw [haddr, Option.getD_some, Toml.StatesZeroTunnelSrc]
      obtain ⟨bytes, hbytes, -, hparse⟩ := (parseTunnelSrc_eq_some _ _).mp haddr
      constructor
      · rintro rfl
        exact ⟨entries, bytes, hget, hbytes, hparse⟩
      · rintro ⟨entries', bytes', hget', hbytes', hparse'⟩
        cases hget.symm.trans hget'
        cases hbytes.symm.trans hbytes'
        exact Option.some.inj (hparse.symm.trans hparse')
  · rename_i hother
    refine ⟨⟨fun h => absurd h.1 Bool.false_ne_true, ?_⟩, fun h => absurd h Bool.false_ne_true⟩
    rintro ⟨entries, hget, -⟩
    exact absurd hget (hother entries)

/-! ## [acl] -/

structure ConfAclEntry.Parsed (entry : ConfAclEntry) (isV6 : Bool) : Prop where
  prefixlen : entry.prefixlen ≤ if isV6 then 128 else 32
  padded : isV6 = false → entry.addr = ⟨entry.addr.w0, 0, 0, 0⟩

structure ConfAcl.Parsed (acl : ConfAcl) : Prop where
  allowV4 : ∀ entry ∈ acl.allowV4, entry.Parsed false
  blockV4 : ∀ entry ∈ acl.blockV4, entry.Parsed false
  allowV6 : ∀ entry ∈ acl.allowV6, entry.Parsed true
  blockV6 : ∀ entry ∈ acl.blockV6, entry.Parsed true

theorem parseAclFrom_sound (oom : String → Bool) (key : String) (i : Nat) (elem : List Toml) :
    (parseAclFrom oom key i elem).Sound fun cidrs =>
      ∀ cidr ∈ cidrs, ∃ str, confParseCidr str = some cidr := by
  induction elem generalizing i with
  | nil => exact .pure (by simp)
  | cons t rest ih =>
      simp only [parseAclFrom]
      split
      · exact .report
      · next cidr hcidr =>
        refine .ite (fun _ => .report) fun _ => .bind (ih (i + 1)) fun cidrs hcidrs => .pure ?_
        refine List.forall_mem_cons.mpr ⟨?_, hcidrs⟩
        cases t with
        | string bytes => exact ⟨_, hcidr⟩
        | _ => cases hcidr

theorem parseAclArray_sound (oom : String → Bool) (tab : Toml) (key : String) :
    (parseAclArray oom tab key).Sound fun cidrs =>
      ∀ cidr ∈ cidrs, ∃ str, confParseCidr str = some cidr := by
  simp only [parseAclArray]
  split
  · exact .pure (by simp)
  · exact parseAclFrom_sound oom key 0 _
  · exact .reject

theorem aclEntries_parsed {cidrs : List ConfCidr}
    (h : ∀ cidr ∈ cidrs, ∃ str, confParseCidr str = some cidr) (isV6 : Bool) :
    ∀ entry ∈ aclEntries cidrs isV6, entry.Parsed isV6 := by
  intro entry hentry
  obtain ⟨cidr, hcidr, rfl⟩ := List.mem_map.mp hentry
  obtain ⟨hmem, hfamily⟩ := List.mem_filter.mp hcidr
  obtain ⟨str, hstr⟩ := h cidr hmem
  have hbounds := confParseCidr_bounds hstr
  rw [eq_of_beq hfamily] at hbounds
  exact ⟨hbounds.1, hbounds.2⟩

theorem parseAcl_sound (oom : String → Bool) (top : Toml) :
    (parseAcl oom top).Sound ConfAcl.Parsed := by
  have hnil : ∀ isV6, ∀ entry ∈ ([] : List ConfAclEntry), entry.Parsed isV6 := by simp
  have hzero : (0 : ConfAcl).Parsed := ⟨hnil _, hnil _, hnil _, hnil _⟩
  simp only [parseAcl]
  split
  · exact .pure hzero
  · refine .next fun enabled => ?_
    refine .bind (parseAclArray_sound oom _ _) fun allow hallow => ?_
    refine .bind (parseAclArray_sound oom _ _) fun block hblock => .pure ?_
    exact ⟨aclEntries_parsed hallow false, aclEntries_parsed hblock false,
      aclEntries_parsed hallow true, aclEntries_parsed hblock true⟩
  · exact .reject

/-! ## [[backend]] -/

structure ConfBackend.Parsed (backend : ConfBackend) : Prop where
  flags : ∃ mode ∈ confModes, ∃ up, backend.abi.flags = parsedBackendFlags mode up
  vni : backend.abi.vni < 2 ^ 24
  vniStated : backend.vniStated = false → backend.abi.vni = 0
  innerMacStated : backend.innerMacStated = false → backend.abi.innerMac = 0

theorem parseBackendMode_sound (tab : Toml) (path : String) :
    (parseBackendMode tab path).Sound (· ∈ confModes) := by
  refine .next fun got => ?_
  cases got with
  | none => exact .pure (by decide)
  | some buf =>
      dsimp only
      split
      · exact .reject
      · next mode hmode => exact .pure (confParseMode_mem hmode)

theorem parseBackendVni_sound (tab : Toml) (path : String) :
    (parseBackendVni tab path).Sound fun vni => vni.getD 0 < 2 ^ 24 := by
  refine .next fun got => ?_
  cases got with
  | value val =>
      refine .ite (fun _ => .reject) fun hrange => .pure ?_
      simp only [Option.getD_some]
      omega
  | absent => exact .pure (by decide)
  | failed => exact .pure (by decide)

theorem parseOneBackend_sound (tab : Toml) (idx : Nat) :
    (parseOneBackend tab idx).Sound ConfBackend.Parsed := by
  refine .next fun name => .next fun id => .next fun addr => ?_
  refine .bind (parseBackendMode_sound tab _) fun mode hmode => ?_
  refine .next fun up => .next fun mac => .next fun fib => .next fun egress => ?_
  refine .next fun dport => .bind (parseBackendVni_sound tab _) fun vni hvni => ?_
  refine .next fun innerMac => .pure ⟨⟨mode, hmode, up, rfl⟩, hvni, ?_, ?_⟩
  · intro hstated
    cases vni with
    | none => rfl
    | some vni => cases hstated
  · intro hstated
    cases innerMac with
    | none => rfl
    | some innerMac => cases hstated

theorem parseBackends_sound (oom : String → Bool) (top : Toml) :
    (parseBackends oom top).Sound fun backends => ∀ b ∈ backends, b.Parsed := by
  simp only [parseBackends]
  split
  · exact .pure (by simp)
  · refine .ite (fun _ => .reject) fun _ => .collect (fun elem idx => ?_) 0 _
    cases elem with
    | table entries => exact parseOneBackend_sound _ idx
    | _ => exact .reject
  · exact .reject

/-! ## [[vip]] -/

structure ConfVip.Parsed (vip : ConfVip) : Prop where
  canonical : ∀ key ∈ vip.keys, key.Canonical
  uniform : ∃ port proto, ∀ key ∈ vip.keys, key.port = port ∧ key.proto = proto
  nonempty : vip.keys ≠ []

theorem parseOneAddr_sound (str : List UInt8) (path : String) :
    (parseOneAddr str path).Sound VipKey.Canonical := by
  simp only [parseOneAddr]
  split
  · exact .pure fun _ => rfl
  · split
    · refine .pure fun hfamily => ?_
      have hne : afInet6 ≠ afInet := by decide
      exact absurd hfamily hne
    · exact .reject

theorem parseVipAddrElem_sound (path : String) (elem : Toml) (i : Nat) :
    (parseVipAddrElem path elem i).Sound VipKey.Canonical := by
  cases elem with
  | string bytes => exact .ite (fun _ => .reject) fun _ => parseOneAddr_sound _ _
  | _ => exact .reject

theorem parseVipAddress_sound (oom : String → Bool) (tab : Toml) (path : String) :
    (parseVipAddress oom tab path).Sound fun keys =>
      keys ≠ [] ∧ ∀ key ∈ keys, key.Canonical := by
  simp only [parseVipAddress]
  split
  · exact .reject
  · refine .ite (fun _ => .reject) fun _ => .ite (fun _ => .reject) fun _ => ?_
    exact .bind (parseOneAddr_sound _ _) fun key hkey => .pure ⟨by simp, by simpa using hkey⟩
  · next elem _ =>
    refine .ite (fun _ => .reject) fun hne => .ite (fun _ => .reject) fun _ => ?_
    intro hquiet
    refine ⟨?_, Parsed.Sound.collect (parseVipAddrElem_sound path) 0 elem hquiet⟩
    intro hnil
    have hlen := Parsed.length_collect (parseVipAddrElem path) 0 elem
    rw [hnil] at hlen
    exact hne hlen.symm
  · exact .reject

theorem parseOneVip_sound (oom : String → Bool) (tab : Toml) (idx : Nat) :
    (parseOneVip oom tab idx).Sound ConfVip.Parsed := by
  refine .bind (parseVipAddress_sound oom tab _) fun keys hkeys => ?_
  refine .next fun port => .next fun proto => .next fun hashKey => .next fun tableSeed => ?_
  refine .next fun flags => .next fun members => .pure ⟨?_, ⟨port, proto, ?_⟩, ?_⟩
  · intro key hkey
    obtain ⟨parsed, hparsed, rfl⟩ := List.mem_map.mp hkey
    exact hkeys.2 parsed hparsed
  · intro key hkey
    obtain ⟨parsed, hparsed, rfl⟩ := List.mem_map.mp hkey
    exact ⟨rfl, rfl⟩
  · simpa using hkeys.1

theorem parseVips_sound (oom : String → Bool) (top : Toml) :
    (parseVips oom top).Sound fun vips => ∀ vip ∈ vips, vip.Parsed := by
  simp only [parseVips]
  split
  · exact .pure (by simp)
  · refine .ite (fun _ => .reject) fun _ => .collect (fun elem idx => ?_) 0 _
    cases elem with
    | table entries => exact parseOneVip_sound oom _ idx
    | _ => exact .reject
  · exact .reject

/-! ## The number of addresses -/

theorem Toml.size_pos (t : Toml) : 0 < t.size := by
  cases t <;> (unfold Toml.size; omega)

theorem Toml.length_le_sizeList (ts : List Toml) : ts.length ≤ Toml.sizeList ts := by
  induction ts with
  | nil => exact Nat.le_refl _
  | cons t ts ih =>
      have hpos := t.size_pos
      simp only [List.length_cons, Toml.sizeList]
      omega

theorem Toml.size_le_of_mem {entries : List (List UInt8 × Toml)} {kv : List UInt8 × Toml}
    (h : kv ∈ entries) : kv.2.size ≤ Toml.sizeEntries entries := by
  induction entries with
  | nil => cases h
  | cons first rest ih =>
      simp only [Toml.sizeEntries]
      rcases List.mem_cons.mp h with rfl | hrest
      · omega
      · have := ih hrest
        omega

theorem Toml.size_get {tab t : Toml} {key : String} (h : tab.get key = some t) :
    t.size ≤ tab.size := by
  cases tab with
  | table entries =>
      obtain ⟨kv, hfind, rfl⟩ := Option.map_eq_some_iff.mp h
      have hmem := Toml.size_le_of_mem (List.mem_of_find?_eq_some hfind)
      simp only [Toml.size]
      omega
  | _ => cases h

theorem parseVipAddress_length (oom : String → Bool) (tab : Toml) (path : String) :
    (parseVipAddress oom tab path).val.length ≤ tab.size := by
  have hpos := tab.size_pos
  simp only [parseVipAddress]
  split
  · exact Nat.zero_le _
  · repeat' split
    · exact Nat.zero_le _
    · exact Nat.zero_le _
    · exact hpos
  · next elem hget =>
    repeat' split
    · exact Nat.zero_le _
    · exact Nat.zero_le _
    · have hsize := Toml.size_get hget
      have hlen := Toml.length_le_sizeList elem
      rw [Parsed.length_collect]
      simp only [Toml.size] at hsize
      omega
  · exact Nat.zero_le _

theorem parseVipElem_length (oom : String → Bool) (elem : Toml) (idx : Nat) :
    (parseVipElem oom elem idx).val.keys.length ≤ elem.size := by
  cases elem with
  | table entries =>
      have hlen := parseVipAddress_length oom (.table entries) s!"vip[{idx}]"
      have hkeys : (parseVipElem oom (.table entries) idx).val.keys.length =
          (parseVipAddress oom (.table entries) s!"vip[{idx}]").val.length :=
        List.length_map _
      rw [hkeys]
      exact hlen
  | _ => exact Nat.zero_le _

theorem parseVips_keyTotal (oom : String → Bool) (top : Toml) :
    ((parseVips oom top).val.map fun vip => vip.keys.length).sum ≤ top.size := by
  have hcollect : ∀ (elem : List Toml) (i : Nat),
      ((Parsed.collect (parseVipElem oom) i elem).val.map fun vip => vip.keys.length).sum ≤
        Toml.sizeList elem := by
    intro elem
    induction elem with
    | nil => exact fun _ => Nat.le_refl _
    | cons t rest ih =>
        intro i
        exact Nat.add_le_add (parseVipElem_length oom t i) (ih (i + 1))
  simp only [parseVips]
  split
  · exact Nat.zero_le _
  · next elem hget =>
    split
    · exact Nat.zero_le _
    · have hsize := Toml.size_get hget
      have hsum := hcollect elem 0
      simp only [Toml.size] at hsize
      omega
  · exact Nat.zero_le _

/-! ## The whole file -/

/-- What the parser alone guarantees. -/
structure MarlinConf.Parsed (conf : MarlinConf) : Prop where
  inst : conf.inst.Parsed
  acl : conf.acl.Parsed
  backends : ∀ b ∈ conf.backends, b.Parsed
  vips : ∀ vip ∈ conf.vips, vip.Parsed
  keyTotal : (conf.vips.map fun vip => vip.keys.length).sum < 2 ^ 32

theorem parseConf_sound (host : ConfHost) (doc : TomlDoc) :
    (parseConf host .full doc.toptab).Sound MarlinConf.Parsed := by
  have htotal := parseVips_keyTotal host.oom doc.toptab
  have hsize := doc.size_lt
  refine .bind (parseInstance_sound _) fun inst hinst => ?_
  refine .bind (parseAcl_sound host.oom _) fun acl hacl => .next fun ratelimit => ?_
  refine .bind (parseBackends_sound host.oom _) fun backends hbackends => ?_
  refine .bind (M := fun vips => (∀ vip ∈ vips, vip.Parsed) ∧
    (vips.map fun vip => vip.keys.length).sum < 2 ^ 32) ?_ fun vips hvips => ?_
  · exact fun hquiet => ⟨parseVips_sound host.oom _ hquiet, by omega⟩
  · exact .pure ⟨hinst, hacl, hbackends, hvips.1, hvips.2⟩

theorem confLoad_doc {host : ConfHost} {file : ConfFile} {enforce : Bool} {conf : MarlinConf}
    (h : (confLoad host file .full enforce confDiagReset).1 = some conf) :
    ∃ (doc : TomlDoc) (diag : ConfDiag), file.toml = .ok doc ∧
      (parseConf host .full doc.toptab).val.Parsed ∧ diag.msg = [] ∧
      (confCheck host.nametoindex (parseConf host .full doc.toptab).val diag).ok = true ∧
      conf = (parseConf host .full doc.toptab).val.settle host.nametoindex := by
  simp only [confLoad] at h
  split at h
  · cases h
  · split at h
    · cases h
    · next doc hdoc =>
      split at h
      · cases h
      · split at h
        · cases h
        · next hcount =>
          generalize hopened : confDiagReset.collect (openConfFile file enforce).reports = opened
            at h hcount
          have hle := opened.length_le_collect (parseConf host .full doc.toptab).reports
          have hzero : (opened.collect (parseConf host .full doc.toptab).reports).msg.length = 0 :=
            not_not.mp hcount
          have hroom : opened.msg.length < marlinConfDiagMax := by
            have : (0 : Nat) < marlinConfDiagMax := by decide
            omega
          have hquiet := (opened.length_collect_eq_iff
            (parseConf host .full doc.toptab).reports hroom).mp (by omega)
          dsimp only at h
          split at h
          · next hok =>
            cases h
            exact ⟨doc, _, hdoc, parseConf_sound host doc hquiet,
              List.length_eq_zero_iff.mp hzero, hok, rfl⟩
          · cases h

theorem confLoad_eq_some {host : ConfHost} {file : ConfFile} {enforce : Bool} {conf : MarlinConf}
    (h : (confLoad host file .full enforce confDiagReset).1 = some conf) :
    ∃ (parsed : MarlinConf) (diag : ConfDiag), parsed.Parsed ∧ diag.msg = [] ∧
      (confCheck host.nametoindex parsed diag).ok = true ∧
      conf = parsed.settle host.nametoindex := by
  obtain ⟨doc, diag, -, hparsed, hdiag, hok, hconf⟩ := confLoad_doc h
  exact ⟨_, diag, hparsed, hdiag, hok, hconf⟩

/-! ## The checks of `conf_check` -/

/-- The model that `check_vips` and `check_ratelimit` see. -/
def MarlinConf.settleBackends (nametoindex : CBuf → Nat) (conf : MarlinConf) : MarlinConf :=
  { conf with
    inst := (checkInstance nametoindex conf.inst).1
    backends := conf.backends.map settleFib }

theorem checkInstance_inst (nametoindex : CBuf → Nat) (inst : ConfInstance) :
    ∃ ifindex, (checkInstance nametoindex inst).1 = { inst with ifindex := ifindex } := by
  rw [checkInstance]
  split
  · exact ⟨inst.ifindex, rfl⟩
  · exact ⟨nametoindex inst.iface, rfl⟩

theorem confCheck_quiet {nametoindex : CBuf → Nat} {conf : MarlinConf} {diag : ConfDiag}
    (hdiag : diag.msg = []) (h : (confCheck nametoindex conf diag).ok = true) :
    Quiet (checkInstance nametoindex conf.inst).2 ∧
      Quiet (checkBackendsFrom (checkInstance nametoindex conf.inst).1 conf.backends) ∧
      Quiet (checkVips (conf.settleBackends nametoindex)) ∧ Quiet (checkAcl conf.acl) ∧
      Quiet (checkRatelimit (conf.settleBackends nametoindex)) := by
  have hroom : diag.msg.length < marlinConfDiagMax := by
    rw [hdiag]
    decide
  have hquiet : Quiet (confCheckReports nametoindex conf) :=
    (diag.length_collect_eq_iff _ hroom).mp (by simpa [confCheck] using h)
  simp only [confCheckReports, checkBackends, quiet_append] at hquiet
  obtain ⟨⟨⟨⟨hinst, -, hbackends⟩, hvips⟩, hacl⟩, hratelimit⟩ := hquiet
  exact ⟨hinst, hbackends, hvips, hacl, hratelimit⟩

theorem checkBackendsFrom_each {inst : ConfInstance} {backends : List ConfBackend}
    (h : Quiet (checkBackendsFrom inst backends)) :
    ∀ b ∈ backends, Quiet (checkOneBackend inst b) := by
  induction backends with
  | nil => simp
  | cons backend rest ih =>
      simp only [checkBackendsFrom, quiet_append] at h
      exact List.forall_mem_cons.mpr ⟨h.1.2, ih h.2⟩

theorem checkVipsFrom_each {conf : MarlinConf} {idx : Nat} {vips : List ConfVip}
    (h : Quiet (checkVipsFrom conf idx vips)) :
    ∀ vip ∈ vips, ∃ idx, Quiet (checkOneVip conf idx vip) := by
  induction vips generalizing idx with
  | nil => simp
  | cons vip later ih =>
      simp only [checkVipsFrom, quiet_append] at h
      exact List.forall_mem_cons.mpr ⟨⟨idx, h.1.2⟩, ih h.2⟩

theorem checkMembersFrom_each {conf : MarlinConf} {idx i : Nat} {members : List ConfMember}
    (h : Quiet (checkMembersFrom conf idx i members)) :
    (∀ m ∈ members, (∃ b, findBackend conf m.backendName = some b) ∧ m.weight ≠ 0) ∧
      members.Pairwise fun a b =>
        strncmpEq marlinConfNameMax a.backendName b.backendName = false := by
  induction members generalizing i with
  | nil => simp
  | cons member rest ih =>
      simp only [checkMembersFrom, quiet_append] at h
      obtain ⟨heach, hnames⟩ := ih h.2
      cases hfind : findBackend conf member.backendName with
      | none =>
          rw [hfind] at h
          simp [isError] at h
      | some b =>
          rw [hfind] at h
          simp only [quiet_append, quiet_errorIf, quiet_flatMap, Bool.not_eq_true] at h
          exact ⟨List.forall_mem_cons.mpr ⟨⟨⟨b, hfind⟩, h.1.1⟩, heach⟩,
            List.pairwise_cons.mpr ⟨h.1.2, hnames⟩⟩

theorem findBackend_inj {conf : MarlinConf} {name name' : CBuf} {b : ConfBackend}
    (h : findBackend conf name = some b) (h' : findBackend conf name' = some b) :
    strncmpEq marlinConfNameMax name name' = true := by
  have hb : strncmpEq marlinConfNameMax b.name name = true := by
    simpa using List.find?_some h
  have hb' : strncmpEq marlinConfNameMax b.name name' = true := by
    simpa using List.find?_some h'
  rw [strncmpEq_iff] at hb hb' ⊢
  exact hb.symm.trans hb'

/-- What the datapath relies on in every configuration that is loaded. -/
structure MarlinConf.Valid (conf : MarlinConf) : Prop where
  ids_nodup : (conf.backends.map ConfBackend.id).Nodup
  id_range : ∀ b ∈ conf.backends, 1 ≤ b.id ∧ b.id ≤ maxBackends - 1
  addr : ∀ b ∈ conf.backends, b.abi.addr ≠ 0
  encapRequired : ∀ b ∈ conf.backends,
    b.abi.flags &&& marlinBeFEncapRequired ≠ 0 ↔ encapMode b.abi.flags ≠ marlinModeL2dsr
  vxlan : ∀ b ∈ conf.backends, encapMode b.abi.flags = marlinModeVxlan →
    0 < b.abi.vni ∧ b.abi.vni < 2 ^ 24 ∧ b.abi.innerMac ≠ 0
  notVxlan : ∀ b ∈ conf.backends, encapMode b.abi.flags ≠ marlinModeVxlan →
    b.abi.vni = 0 ∧ b.abi.innerMac = 0
  keys_distinct : conf.keys.Pairwise fun a b => vipKeyEq a b = false
  key_count : conf.keys.length ≤ maxVips
  uniform : ∀ vip ∈ conf.vips, ∀ key ∈ vip.keys, ∀ other ∈ vip.keys,
    key.port = other.port ∧ key.proto = other.proto
  resolved : ∀ vip ∈ conf.vips, ∀ m ∈ vip.members,
    ∃ b ∈ conf.backends, findBackend conf m.backendName = some b ∧ b.id = m.backendId
  members_nodup : ∀ vip ∈ conf.vips, (vip.members.map ConfMember.backendId).Nodup
  weights : ∀ vip ∈ conf.vips, ∀ m ∈ vip.members, m.weight ≠ 0
  quic : ∀ vip ∈ conf.vips, vip.vipMeta.flags &&& vipQuic ≠ 0 →
    7 ≤ vipQuicCidLen vip.vipMeta.flags ∧ vipQuicCidLen vip.vipMeta.flags ≤ 20
  hashPorts : ∀ vip ∈ conf.vips, vip.vipMeta.flags &&& vipHashPorts ≠ 0 →
    (∀ key ∈ vip.keys, key.proto = ipprotoSctp) ∧ vip.vipMeta.flags &&& vipHash5tuple = 0
  group : ∀ vip ∈ conf.vips, 2 ≤ vip.keys.length →
    (∀ key ∈ vip.keys, key.proto = ipprotoSctp) →
      vip.vipMeta.flags &&& vipHash5tuple = 0 ∧
      ((∃ key ∈ vip.keys, key.family = afInet) → (∃ key ∈ vip.keys, key.family ≠ afInet) →
        vip.vipMeta.flags &&& vipHashPorts ≠ 0)
  metered : ∀ vip ∈ conf.vips, vip.vipMeta.flags &&& vipRatelimit ≠ 0 →
    vip.vipMeta.flags &&& vipAcl ≠ 0
  ratelimit : conf.ratelimit.enabled = true → conf.acl.enabled = true ∧
    1 ≤ conf.ratelimit.burstPackets ∧ conf.ratelimit.burstPackets ≤ 0xffffff ∧
    ((∃ vip ∈ conf.vips, vip.vipMeta.flags &&& vipRatelimit ≠ 0) →
      marlindScaleRefill conf.ratelimit.tokensPerSec ≠ 0)

/-! ## Soundness -/

theorem checkOneBackend_valid {inst : ConfInstance} {b : ConfBackend} (hb : b.Parsed)
    (h : Quiet (checkOneBackend inst b)) :
    (settleFib b).abi.addr ≠ 0 ∧
      ((settleFib b).abi.flags &&& marlinBeFEncapRequired ≠ 0 ↔
        encapMode (settleFib b).abi.flags ≠ marlinModeL2dsr) ∧
      (encapMode (settleFib b).abi.flags = marlinModeVxlan →
        0 < b.abi.vni ∧ b.abi.vni < 2 ^ 24 ∧ b.abi.innerMac ≠ 0) ∧
      (encapMode (settleFib b).abi.flags ≠ marlinModeVxlan →
        b.abi.vni = 0 ∧ b.abi.innerMac = 0) ∧
      ((settleFib b).abi.flags &&& marlinBeFEncapRequired ≠ 0 → inst.tunnelSrcSet = true) := by
  have hfib : ∀ mode ∈ confModes, ∀ up fib : Bool,
      let flags := if fib then parsedBackendFlags mode up ||| marlinBeFFib
        else parsedBackendFlags mode up &&& ~~~marlinBeFFib
      (flags &&& marlinBeFEncapRequired ≠ 0 ↔ encapMode flags ≠ marlinModeL2dsr) ∧
        encapMode flags = encapMode (parsedBackendFlags mode up) ∧
        (flags &&& marlinBeFEncapRequired ≠ 0 →
          parsedBackendFlags mode up &&& marlinBeFEncapRequired ≠ 0) := by
    decide +kernel
  obtain ⟨mode, hmode, up, hflags⟩ := hb.flags
  have hsettled := hfib mode hmode up (if b.fibStated then b.fibValue else b.macStated)
  rw [← hflags] at hsettled
  obtain ⟨hrequired, hencap, htunnel⟩ := hsettled
  simp only [checkOneBackend, quiet_append, quiet_errorIf] at h
  obtain ⟨⟨⟨haddr, hsrc⟩, hmodes⟩, -⟩ := h
  have hmodeEq : encapMode (settleFib b).abi.flags = encapMode b.abi.flags := hencap
  refine ⟨haddr, hrequired, ?_, ?_, ?_⟩
  · intro hvxlan
    rw [hmodeEq] at hvxlan
    rw [if_pos hvxlan] at hmodes
    simp only [quiet_append, quiet_errorIf, not_or] at hmodes
    exact ⟨Nat.pos_of_ne_zero hmodes.1.2.1, hb.vni, hmodes.2.2⟩
  · intro hplain
    rw [hmodeEq] at hplain
    rw [if_neg hplain] at hmodes
    simp only [quiet_errorIf, not_or, Bool.not_eq_true] at hmodes
    exact ⟨hb.vniStated hmodes.1, hb.innerMacStated hmodes.2⟩
  · intro hset
    by_contra hunset
    exact hsrc ⟨htunnel hset, by simpa using hunset⟩

theorem ConfVip.Parsed.proto_eq {vip : ConfVip} (h : vip.Parsed) :
    ∀ key ∈ vip.keys, key.proto = vip.proto := by
  obtain ⟨port, proto, huniform⟩ := h.uniform
  intro key hkey
  obtain ⟨first, hfirst⟩ := List.exists_mem_of_ne_nil _ h.nonempty
  cases hkeys : vip.keys with
  | nil => exact absurd hkeys h.nonempty
  | cons head rest =>
      have hhead := (huniform head (by simp [hkeys])).2
      rw [(huniform key hkey).2, ConfVip.proto, hkeys]
      exact hhead.symm

theorem checkOneVip_valid {conf : MarlinConf} {idx : Nat} {vip : ConfVip} (hvip : vip.Parsed)
    (h : Quiet (checkOneVip conf idx vip)) :
    (vip.vipMeta.flags &&& vipQuic ≠ 0 →
      7 ≤ vipQuicCidLen vip.vipMeta.flags ∧ vipQuicCidLen vip.vipMeta.flags ≤ 20) ∧
    (vip.vipMeta.flags &&& vipHashPorts ≠ 0 →
      (∀ key ∈ vip.keys, key.proto = ipprotoSctp) ∧ vip.vipMeta.flags &&& vipHash5tuple = 0) ∧
    (2 ≤ vip.keys.length → (∀ key ∈ vip.keys, key.proto = ipprotoSctp) →
      vip.vipMeta.flags &&& vipHash5tuple = 0 ∧
      ((∃ key ∈ vip.keys, key.family = afInet) → (∃ key ∈ vip.keys, key.family ≠ afInet) →
        vip.vipMeta.flags &&& vipHashPorts ≠ 0)) ∧
    (vip.vipMeta.flags &&& vipRatelimit ≠ 0 → vip.vipMeta.flags &&& vipAcl ≠ 0) := by
  have hproto := hvip.proto_eq
  simp only [checkOneVip, quiet_append, quiet_errorIf] at h
  obtain ⟨⟨⟨⟨⟨⟨hquic, -⟩, hmetered⟩, hsctp⟩, hboth⟩, hgroup⟩, -⟩ := h
  refine ⟨?_, ?_, ?_, ?_⟩
  · intro hset
    by_contra hrange
    exact hquic ⟨hset, by omega⟩
  · intro hset
    refine ⟨fun key hkey => ?_, ?_⟩
    · rw [hproto key hkey]
      by_contra hne
      exact hsctp ⟨hset, hne⟩
    · by_contra hne
      exact hboth ⟨hset, hne⟩
  · intro hlen hall
    obtain ⟨first, hfirst⟩ := List.exists_mem_of_ne_nil _ hvip.nonempty
    have hown : vip.proto = ipprotoSctp := (hproto first hfirst).symm.trans (hall first hfirst)
    rw [checkVipGroup, if_neg (by simp [hown]; omega)] at hgroup
    simp only [quiet_append, quiet_errorIf, not_not] at hgroup
    refine ⟨hgroup.1, ?_⟩
    rintro ⟨v4, hv4, hfamily4⟩ ⟨v6, hv6, hfamily6⟩ hports
    have hmixed : (vip.keys.any fun key => key.family == afInet) = true ∧
        (vip.keys.any fun key => key.family != afInet) = true ∧
        vip.vipMeta.flags &&& vipHashPorts = 0 :=
      ⟨List.any_eq_true.mpr ⟨v4, hv4, by simpa using hfamily4⟩,
        List.any_eq_true.mpr ⟨v6, hv6, by simpa using hfamily6⟩, hports⟩
    have hgroup' := hgroup.2
    rw [if_pos hmixed] at hgroup'
    simp [isError] at hgroup'
  · intro hset hclear
    exact hmetered ⟨hset, hclear⟩

theorem checkRatelimit_valid {conf : MarlinConf} (h : Quiet (checkRatelimit conf))
    (henabled : conf.ratelimit.enabled = true) :
    conf.acl.enabled = true ∧ 1 ≤ conf.ratelimit.burstPackets ∧
      conf.ratelimit.burstPackets ≤ 0xffffff ∧
      ((∃ vip ∈ conf.vips, vip.vipMeta.flags &&& vipRatelimit ≠ 0) →
        marlindScaleRefill conf.ratelimit.tokensPerSec ≠ 0) := by
  rw [checkRatelimit, if_neg (by simp [henabled])] at h
  simp only [quiet_append, quiet_errorIf, Bool.not_eq_false, not_or] at h
  obtain ⟨⟨hacl, hzero, hmax⟩, hrefill⟩ := h
  refine ⟨hacl, by omega, by omega, ?_⟩
  rintro ⟨vip, hvip, hmetered⟩
  have hany : (conf.vips.any fun vip => vip.vipMeta.flags &&& vipRatelimit != 0) = true :=
    List.any_eq_true.mpr ⟨vip, hvip, by simpa using hmetered⟩
  rw [if_neg (by simp [hany])] at hrefill
  simpa using hrefill

theorem settledMembers_valid {conf : MarlinConf} {idx : Nat} {vip : ConfVip}
    (hids : (conf.backends.map ConfBackend.id).Nodup)
    (h : Quiet (checkVipMembers conf idx vip)) :
    ((vip.members.map (resolveMember conf)).map ConfMember.backendId).Nodup ∧
      ∀ m ∈ vip.members.map (resolveMember conf), m.weight ≠ 0 := by
  simp only [checkVipMembers, quiet_append] at h
  obtain ⟨heach, hnames⟩ := checkMembersFrom_each h.1
  constructor
  · rw [List.map_map, List.Nodup, List.pairwise_map]
    refine hnames.imp_of_mem fun {a b} ha hb hne => ?_
    obtain ⟨ba, hba⟩ := (heach a ha).1
    obtain ⟨bb, hbb⟩ := (heach b hb).1
    intro heq
    simp only [Function.comp_apply, resolveMember, hba, hbb] at heq
    have hsame := List.inj_on_of_nodup_map hids (List.mem_of_find?_eq_some hba)
      (List.mem_of_find?_eq_some hbb) heq
    rw [findBackend_inj hba (hsame ▸ hbb)] at hne
    cases hne
  · intro m hm
    obtain ⟨member, hmember, rfl⟩ := List.mem_map.mp hm
    obtain ⟨⟨b, hb⟩, hweight⟩ := heach member hmember
    rw [resolveMember, hb]
    exact hweight

theorem MarlinConf.settle_vip {nametoindex : CBuf → Nat} {conf : MarlinConf}
    (hconf : conf.Parsed) (h : Quiet (checkVips (conf.settleBackends nametoindex))) :
    ∀ vip ∈ (conf.settle nametoindex).vips, ∃ vip' ∈ conf.vips, vip'.Parsed ∧
      vip = { vip' with
        members := vip'.members.map (resolveMember (conf.settleBackends nametoindex)) } ∧
      ∃ idx, Quiet (checkOneVip (conf.settleBackends nametoindex) idx vip') := by
  simp only [checkVips, quiet_append] at h
  intro vip hvip
  obtain ⟨vip', hvip', rfl⟩ := List.mem_map.mp hvip
  exact ⟨vip', hvip', hconf.vips vip' hvip', rfl, checkVipsFrom_each h.2 vip' hvip'⟩

theorem MarlinConf.Parsed.key_count {nametoindex : CBuf → Nat} {conf : MarlinConf}
    (hconf : conf.Parsed) (h : Quiet (checkVips (conf.settleBackends nametoindex))) :
    (conf.settle nametoindex).keys.length ≤ maxVips := by
  simp only [checkVips, quiet_append, quiet_errorIf] at h
  have htotal : (conf.vips.map fun vip => vip.keys.length).sum % 2 ^ 32 ≤ maxVips :=
    Nat.le_of_not_lt h.1
  rw [Nat.mod_eq_of_lt hconf.keyTotal] at htotal
  rw [MarlinConf.settle_keys, MarlinConf.keys, List.length_flatMap]
  exact htotal

theorem MarlinConf.Parsed.valid {nametoindex : CBuf → Nat} {conf : MarlinConf} {diag : ConfDiag}
    (hconf : conf.Parsed) (hdiag : diag.msg = [])
    (h : (confCheck nametoindex conf diag).ok = true) : (conf.settle nametoindex).Valid := by
  obtain ⟨-, hbackends, hvips, -, hratelimit⟩ := confCheck_quiet hdiag h
  have hchecked : (conf.settle nametoindex).Checked :=
    confCheck_checked (by rw [hdiag]; decide) h
  have hback : ∀ b ∈ (conf.settle nametoindex).backends, ∃ b', b = settleFib b' ∧ b'.Parsed ∧
      Quiet (checkOneBackend (checkInstance nametoindex conf.inst).1 b') := by
    intro b hb
    obtain ⟨b', hb', rfl⟩ := List.mem_map.mp (show b ∈ conf.backends.map settleFib from hb)
    exact ⟨b', rfl, hconf.backends b' hb', checkBackendsFrom_each hbackends b' hb'⟩
  have hids : ((conf.settleBackends nametoindex).backends.map ConfBackend.id).Nodup :=
    hchecked.ids_nodup
  have hvip := MarlinConf.settle_vip hconf hvips
  refine
    { ids_nodup := hchecked.ids_nodup
      id_range := ?_
      addr := ?_
      encapRequired := ?_
      vxlan := ?_
      notVxlan := ?_
      keys_distinct := hchecked.keys_distinct
      key_count := hconf.key_count hvips
      uniform := ?_
      resolved := ?_
      members_nodup := ?_
      weights := ?_
      quic := ?_
      hashPorts := ?_
      group := ?_
      metered := ?_
      ratelimit := ?_ }
  · intro b hb
    have hzero := hchecked.id_ne_zero b hb
    have hlt := hchecked.id_lt b hb
    simp only [marlinNoBackend] at hzero
    omega
  · intro b hb
    obtain ⟨b', rfl, hparsed, hquiet⟩ := hback b hb
    exact (checkOneBackend_valid hparsed hquiet).1
  · intro b hb
    obtain ⟨b', rfl, hparsed, hquiet⟩ := hback b hb
    exact (checkOneBackend_valid hparsed hquiet).2.1
  · intro b hb
    obtain ⟨b', rfl, hparsed, hquiet⟩ := hback b hb
    exact (checkOneBackend_valid hparsed hquiet).2.2.1
  · intro b hb
    obtain ⟨b', rfl, hparsed, hquiet⟩ := hback b hb
    exact (checkOneBackend_valid hparsed hquiet).2.2.2.1
  · intro vip hmem key hkey other hother
    obtain ⟨vip', -, hparsed, rfl, -⟩ := hvip vip hmem
    obtain ⟨port, proto, huniform⟩ := hparsed.uniform
    obtain ⟨hport, hproto⟩ := huniform key hkey
    obtain ⟨hport', hproto'⟩ := huniform other hother
    exact ⟨hport.trans hport'.symm, hproto.trans hproto'.symm⟩
  · intro vip hmem m hm
    obtain ⟨b, hfind, hid⟩ := hchecked.resolved vip hmem m hm
    exact ⟨b, List.mem_of_find?_eq_some hfind, hfind, hid⟩
  · intro vip hmem
    obtain ⟨vip', -, -, rfl, idx, hquiet⟩ := hvip vip hmem
    simp only [checkOneVip, quiet_append] at hquiet
    exact (settledMembers_valid hids hquiet.2).1
  · intro vip hmem
    obtain ⟨vip', -, -, rfl, idx, hquiet⟩ := hvip vip hmem
    simp only [checkOneVip, quiet_append] at hquiet
    exact (settledMembers_valid hids hquiet.2).2
  · intro vip hmem
    obtain ⟨vip', -, hparsed, rfl, idx, hquiet⟩ := hvip vip hmem
    exact (checkOneVip_valid hparsed hquiet).1
  · intro vip hmem
    obtain ⟨vip', -, hparsed, rfl, idx, hquiet⟩ := hvip vip hmem
    exact (checkOneVip_valid hparsed hquiet).2.1
  · intro vip hmem
    obtain ⟨vip', -, hparsed, rfl, idx, hquiet⟩ := hvip vip hmem
    exact (checkOneVip_valid hparsed hquiet).2.2.1
  · intro vip hmem
    obtain ⟨vip', -, hparsed, rfl, idx, hquiet⟩ := hvip vip hmem
    exact (checkOneVip_valid hparsed hquiet).2.2.2
  · intro henabled
    obtain ⟨hacl, hone, hmax, hrefill⟩ := checkRatelimit_valid hratelimit henabled
    refine ⟨hacl, hone, hmax, ?_⟩
    rintro ⟨vip, hmem, hmetered⟩
    obtain ⟨vip', hvip', -, rfl, -⟩ := hvip vip hmem
    exact hrefill ⟨vip', hvip', hmetered⟩

/-- Validation is sound: whatever `conf_load` returns is valid. -/
theorem confLoad_valid {host : ConfHost} {file : ConfFile} {enforce : Bool} {conf : MarlinConf}
    (h : (confLoad host file .full enforce confDiagReset).1 = some conf) : conf.Valid := by
  obtain ⟨parsed, diag, hparsed, hdiag, hok, rfl⟩ := confLoad_eq_some h
  exact hparsed.valid hdiag hok

/-! ## Accepted configurations -/

/-- Some file is loaded as this configuration. -/
def MarlinConf.Accepted (conf : MarlinConf) : Prop :=
  ∃ host file enforce, (confLoad host file .full enforce confDiagReset).1 = some conf

theorem checkAclList_length {entries : List ConfAclEntry} {isV6 listAllow : Bool}
    {listName : String} (h : Quiet (checkAclList entries isV6 listAllow listName)) :
    entries.length ≤ maxAclEntries := by
  simp only [checkAclList, quiet_append, quiet_errorIf] at h
  exact Nat.le_of_not_lt h.1

namespace MarlinConf.Accepted

variable {conf : MarlinConf} (h : conf.Accepted)

include h

theorem valid : conf.Valid := by
  obtain ⟨host, file, enforce, hload⟩ := h
  obtain ⟨parsed, diag, hparsed, hdiag, hok, rfl⟩ := confLoad_eq_some hload
  exact hparsed.valid hdiag hok

theorem checked : conf.Checked := by
  obtain ⟨host, file, enforce, hload⟩ := h
  obtain ⟨parsed, diag, -, hdiag, hok, rfl⟩ := confLoad_eq_some hload
  exact confCheck_checked (by rw [hdiag]; decide) hok

theorem keysDistinct : conf.KeysDistinct := h.checked.keys_distinct

theorem keysCanonical : ∀ key ∈ conf.keys, key.Canonical := by
  obtain ⟨host, file, enforce, hload⟩ := h
  obtain ⟨parsed, diag, hparsed, -, -, rfl⟩ := confLoad_eq_some hload
  intro key hkey
  rw [MarlinConf.settle_keys] at hkey
  obtain ⟨vip, hvip, hmem⟩ := List.mem_flatMap.mp hkey
  exact (hparsed.vips vip hvip).canonical key hmem

theorem keys_nonempty : ∀ vip ∈ conf.vips, vip.keys ≠ [] := by
  obtain ⟨host, file, enforce, hload⟩ := h
  obtain ⟨parsed, diag, hparsed, -, -, rfl⟩ := confLoad_eq_some hload
  intro vip hvip
  obtain ⟨vip', hvip', rfl⟩ := List.mem_map.mp hvip
  exact (hparsed.vips vip' hvip').nonempty

theorem tunnelSrcSet {b : ConfBackend} (hb : b ∈ conf.backends)
    (hencap : b.abi.flags &&& marlinBeFEncapRequired ≠ 0) : conf.inst.tunnelSrcSet = true := by
  obtain ⟨host, file, enforce, hload⟩ := h
  obtain ⟨parsed, diag, hparsed, hdiag, hok, rfl⟩ := confLoad_eq_some hload
  obtain ⟨-, hbackends, -⟩ := confCheck_quiet hdiag hok
  obtain ⟨b', hb', rfl⟩ := List.mem_map.mp (show b ∈ parsed.backends.map settleFib from hb)
  exact (checkOneBackend_valid (hparsed.backends b' hb')
    (checkBackendsFrom_each hbackends b' hb')).2.2.2.2 hencap

theorem txPorts_length : conf.inst.txPorts.length ≤ maxTxPorts := by
  obtain ⟨host, file, enforce, hload⟩ := h
  obtain ⟨parsed, diag, hparsed, -, -, rfl⟩ := confLoad_eq_some hload
  obtain ⟨ifindex, hinst⟩ := checkInstance_inst host.nametoindex parsed.inst
  change (checkInstance host.nametoindex parsed.inst).1.txPorts.length ≤ maxTxPorts
  rw [hinst]
  exact hparsed.inst.txPorts

theorem acl_length : conf.acl.allowV4.length ≤ maxAclEntries ∧
    conf.acl.blockV4.length ≤ maxAclEntries ∧ conf.acl.allowV6.length ≤ maxAclEntries ∧
    conf.acl.blockV6.length ≤ maxAclEntries := by
  obtain ⟨host, file, enforce, hload⟩ := h
  obtain ⟨parsed, diag, -, hdiag, hok, rfl⟩ := confLoad_eq_some hload
  obtain ⟨-, -, -, hacl, -⟩ := confCheck_quiet hdiag hok
  simp only [checkAcl, quiet_append] at hacl
  obtain ⟨⟨⟨⟨hallowV4, hblockV4⟩, hallowV6⟩, hblockV6⟩, -⟩ := hacl
  exact ⟨checkAclList_length hallowV4, checkAclList_length hblockV4,
    checkAclList_length hallowV6, checkAclList_length hblockV6⟩

end MarlinConf.Accepted

namespace Sample

def tomlStr (s : String) : Toml := .string (cstr s)

def tomlTable (entries : List (String × Toml)) : Toml :=
  .table (entries.map fun kv => (cstr kv.1, kv.2))

def confHost : ConfHost where
  nametoindex name := if name.str = cstr "eth0" then 2 else 0
  oom _ := false

def confToml : Toml :=
  tomlTable [
    ("instance", tomlTable [("interface", tomlStr "eth0"), ("tunnel_src", tomlStr "10.0.0.9")]),
    ("acl", tomlTable [("enabled", .boolean true), ("block", .array [tomlStr "10.9.0.0/16"])]),
    ("backend", .array [tomlTable [("name", tomlStr "b1"), ("id", .int64 5),
      ("addr", tomlStr "10.0.0.1"), ("mode", tomlStr "ipip")]]),
    ("vip", .array [tomlTable [("addr", tomlStr "192.0.2.1"), ("port", .int64 80),
      ("proto", tomlStr "tcp"), ("acl", .boolean true),
      ("hash_key", tomlStr "000102030405060708090a0b0c0d0e0f"),
      ("table_seed", tomlStr "0f0e0d0c0b0a09080706050403020100"),
      ("members", .array [tomlTable [("backend", tomlStr "b1"), ("weight", .int64 1)]])]])]

def confFile : ConfFile where
  path := "marlin.toml"
  openFault := none
  fdopenFault := none
  othersMayWrite := false
  othersMayRead := false
  toml := .ok ⟨confToml, by decide⟩

end Sample

theorem confLoad_valid_sample :
    ∃ conf, (confLoad Sample.confHost Sample.confFile .full true confDiagReset).1 = some conf ∧
      conf.Valid := by
  have hsome : (confLoad Sample.confHost Sample.confFile .full true confDiagReset).1.isSome := by
    decide +kernel
  obtain ⟨conf, hconf⟩ := Option.isSome_iff_exists.mp hsome
  exact ⟨conf, hconf, confLoad_valid hconf⟩

end Marlin
