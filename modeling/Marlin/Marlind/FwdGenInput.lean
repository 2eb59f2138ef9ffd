import Marlin.Marlind.FwdGenChoice
import Marlin.Marlind.ReconcileRuns

/-!
# What a member is hashed under

The 24 bytes that score a member carry its address, its VNI and its inner MAC.  Validation
tells backends apart by name and by identifier only, so two members of an entry can have all
three in common.  They tie on every row, and the one with the higher identifier never serves.
-/

namespace Marlin

open Marlin.Library

def FwdGenMember.identity (m : FwdGenMember) : Be32 × Nat × Mac := (m.addr, m.vni, m.innerMac)

theorem Be32.bytes_inj {a b : Be32} (h : a.bytes = b.bytes) : a = b := by
  cases a
  cases b
  simpa [Be32.bytes] using h

theorem Mac.bytes_inj {a b : Mac} (h : a.bytes = b.bytes) : a = b := by
  cases a
  cases b
  simpa [Mac.bytes] using h

theorem eq_of_low_bytes {m n : Nat} (hm : m < 2 ^ 24) (hn : n < 2 ^ 24)
    (h0 : UInt8.ofNat m = UInt8.ofNat n) (h1 : UInt8.ofNat (m >>> 8) = UInt8.ofNat (n >>> 8))
    (h2 : UInt8.ofNat (m >>> 16) = UInt8.ofNat (n >>> 16)) : m = n := by
  have b0 := congrArg UInt8.toNat h0
  have b1 := congrArg UInt8.toNat h1
  have b2 := congrArg UInt8.toNat h2
  simp only [UInt8.toNat_ofNat', Nat.shiftRight_eq_div_pow] at b0 b1 b2
  omega

theorem buildScoreBuf_congr {a b : FwdGenMember} (h : a.identity = b.identity)
    (rowSeed : UInt64) : buildScoreBuf rowSeed a = buildScoreBuf rowSeed b := by
  simp only [FwdGenMember.identity, Prod.mk.injEq] at h
  obtain ⟨haddr, hvni, hmac⟩ := h
  rw [buildScoreBuf, buildScoreBuf, haddr, hvni, hmac]

/-- The buffer loses nothing of an identity whose VNI has 24 bits. -/
theorem buildScoreBuf_inj {a b : FwdGenMember} (ha : a.vni < 2 ^ 24) (hb : b.vni < 2 ^ 24)
    {rowSeed : UInt64} (h : buildScoreBuf rowSeed a = buildScoreBuf rowSeed b) :
    a.identity = b.identity := by
  simp only [buildScoreBuf, List.append_assoc] at h
  have htail := (List.append_right_inj _).mp h
  obtain ⟨haddr, hrest⟩ := List.append_inj htail rfl
  obtain ⟨hvni, hpad⟩ := List.append_inj hrest rfl
  obtain ⟨hmac, -⟩ := List.append_inj hpad rfl
  simp only [List.cons.injEq] at hvni
  rw [FwdGenMember.identity, FwdGenMember.identity, Be32.bytes_inj haddr, Mac.bytes_inj hmac,
    eq_of_low_bytes ha hb hvni.1 hvni.2.1 hvni.2.2.1]

/-! ## Entries of an accepted configuration -/

def ScoreInputsDiffer (conf : MarlinConf) (vip : ConfVip) : Prop :=
  ∀ rowSeed : UInt64, (genMembers conf vip).Pairwise fun a b =>
    buildScoreBuf rowSeed a ≠ buildScoreBuf rowSeed b

def IdentitiesDiffer (conf : MarlinConf) (vip : ConfVip) : Prop :=
  ∀ a ∈ conf.backends, ∀ b ∈ conf.backends,
    a.id ∈ vip.members.map ConfMember.backendId → b.id ∈ vip.members.map ConfMember.backendId →
    a.abi.addr = b.abi.addr → a.abi.vni = b.abi.vni → a.abi.innerMac = b.abi.innerMac →
    a.id = b.id

theorem genMember_eq {conf : MarlinConf} (h : (conf.backends.map ConfBackend.id).Nodup)
    {b : ConfBackend} (hb : b ∈ conf.backends) {m : ConfMember} (hid : b.id = m.backendId) :
    genMember conf m = ⟨b.id, m.weight, b.abi.addr, b.abi.vni, b.abi.innerMac⟩ := by
  rw [genMember, ← hid, MarlinConf.find_id h hb]

theorem MarlinConf.Valid.vni_lt {conf : MarlinConf} (h : conf.Valid) {b : ConfBackend}
    (hb : b ∈ conf.backends) : b.abi.vni < 2 ^ 24 := by
  by_cases hmode : encapMode b.abi.flags = marlinModeVxlan
  · exact (h.vxlan b hb hmode).2.1
  · rw [(h.notVxlan b hb hmode).1]
    decide

/-- The members of an entry have score inputs of their own exactly when the backends behind
them have identities of their own. -/
theorem scoreInputsDiffer_iff (conf : MarlinConf) (hconf : conf.Accepted) (vip : ConfVip)
    (hvip : vip ∈ conf.vips) : ScoreInputsDiffer conf vip ↔ IdentitiesDiffer conf vip := by
  obtain ⟨host, file, enforce, hload⟩ := hconf
  have hvalid := confLoad_valid hload
  constructor
  · intro hinputs a ha b hb hma hmb haddr hvni hmac
    obtain ⟨m, hm, hmid⟩ := List.mem_map.mp hma
    obtain ⟨n, hn, hnid⟩ := List.mem_map.mp hmb
    by_contra hne
    have hmn : m ≠ n := by
      rintro rfl
      exact hne (hmid.symm.trans hnid)
    have hpair := List.pairwise_map.mp (hinputs 0)
    have : Std.Symm fun m n : ConfMember =>
        buildScoreBuf 0 (genMember conf m) ≠ buildScoreBuf 0 (genMember conf n) :=
      ⟨fun _ _ h => h.symm⟩
    apply hpair.forall hm hn hmn
    apply buildScoreBuf_congr
    rw [genMember_eq hvalid.ids_nodup ha hmid.symm, genMember_eq hvalid.ids_nodup hb hnid.symm]
    simp only [FwdGenMember.identity, haddr, hvni, hmac]
  · intro hidentities rowSeed
    have hnodup := List.pairwise_map.mp (hvalid.members_nodup vip hvip)
    rw [genMembers, List.pairwise_map]
    apply hnodup.imp_of_mem
    intro m n hm hn hne hbuf
    obtain ⟨a, ha, -, haid⟩ := hvalid.resolved vip hvip m hm
    obtain ⟨b, hb, -, hbid⟩ := hvalid.resolved vip hvip n hn
    rw [genMember_eq hvalid.ids_nodup ha haid, genMember_eq hvalid.ids_nodup hb hbid] at hbuf
    have hsame := buildScoreBuf_inj (hvalid.vni_lt ha) (hvalid.vni_lt hb) hbuf
    simp only [FwdGenMember.identity, Prod.mk.injEq] at hsame
    apply hne
    rw [← haid, ← hbid]
    exact hidentities a ha b hb (haid ▸ List.mem_map_of_mem hm) (hbid ▸ List.mem_map_of_mem hn)
      hsame.1 hsame.2.1 hsame.2.2

namespace Sample

def backendsToml (addr1 addr2 : String) : Toml :=
  tomlTable [
    ("instance", tomlTable [("interface", tomlStr "eth0"), ("tunnel_src", tomlStr "10.0.0.9")]),
    ("backend", .array [
      tomlTable [("name", tomlStr "b1"), ("id", .int64 5), ("addr", tomlStr addr1),
        ("mode", tomlStr "ipip")],
      tomlTable [("name", tomlStr "b2"), ("id", .int64 6), ("addr", tomlStr addr2),
        ("mode", tomlStr "ipip")]]),
    ("vip", .array [tomlTable [("addr", tomlStr "192.0.2.1"), ("port", .int64 80),
      ("proto", tomlStr "tcp"),
      ("hash_key", tomlStr "000102030405060708090a0b0c0d0e0f"),
      ("table_seed", tomlStr "0f0e0d0c0b0a09080706050403020100"),
      ("members", .array [tomlTable [("backend", tomlStr "b1"), ("weight", .int64 1)],
        tomlTable [("backend", tomlStr "b2"), ("weight", .int64 1)]])]])]

def apartConf : MarlinConf :=
  loadFile (file (backendsToml "10.0.0.1" "10.0.0.2") (by decide)) (by decide +kernel)

def twinConf : MarlinConf :=
  loadFile (file (backendsToml "10.0.0.1" "10.0.0.1") (by decide)) (by decide +kernel)

end Sample

instance (conf : MarlinConf) (vip : ConfVip) : Decidable (IdentitiesDiffer conf vip) :=
  inferInstanceAs (Decidable (∀ a ∈ conf.backends, ∀ b ∈ conf.backends, _))

theorem scoreInputsDiffer_apart :
    ∃ vip ∈ Sample.apartConf.vips, vip.members.length = 2 ∧
      ScoreInputsDiffer Sample.apartConf vip := by
  have hdiffer : ∃ vip ∈ Sample.apartConf.vips,
      vip.members.length = 2 ∧ IdentitiesDiffer Sample.apartConf vip := by
    decide +kernel
  obtain ⟨vip, hvip, htwo, hident⟩ := hdiffer
  exact ⟨vip, hvip, htwo,
    (scoreInputsDiffer_iff Sample.apartConf (Sample.loadFile_accepted _ _) vip hvip).mpr hident⟩

/-- Two members of `twinConf` are scored from the same bytes. -/
theorem not_scoreInputsDiffer_twin :
    ¬ ∀ conf : MarlinConf, conf.Accepted → ∀ vip ∈ conf.vips, ScoreInputsDiffer conf vip := by
  intro h
  have hclash : ∃ vip ∈ Sample.twinConf.vips,
      ¬ (genMembers Sample.twinConf vip).Pairwise fun a b =>
        buildScoreBuf 0 a ≠ buildScoreBuf 0 b := by
    decide +kernel
  obtain ⟨vip, hvip, hnot⟩ := hclash
  exact hnot (h Sample.twinConf (Sample.loadFile_accepted _ _) vip hvip 0)

/-! ## Shadowed members -/

/-- Members of one identity and one weight tie on every row, whatever the seeds, so only the
lowest identifier among them is ever written to a block. -/
theorem fwdGenBlock_ne_shadowed {S : Type} [LinearOrder S] (score : UInt64 → Nat → S)
    (tableSeed : Key16) {members : List FwdGenMember}
    (hids : (members.map FwdGenMember.backendId).Nodup) {a b : FwdGenMember} (ha : a ∈ members)
    (hb : b ∈ members) (hident : a.identity = b.identity) (hweight : a.weight = b.weight)
    (hlow : a.backendId < b.backendId) (row : Nat) :
    fwdGenBlock score tableSeed members row ≠ b.backendId := by
  have hshadow : ∀ {T : Type} [LinearOrder T] (f : FwdGenMember → T), f a = f b →
      winnerId (elect f FwdGenMember.backendId members) ≠ b.backendId := by
    intro T _ f htie heq
    obtain ⟨m, hm, hmem, hmax⟩ := elect_spec f FwdGenMember.backendId (List.ne_nil_of_mem hb)
    rw [hm] at heq
    obtain rfl : m = b := List.inj_on_of_nodup_map hids hmem hb heq
    exact hmax a ha (Or.inr ⟨htie, hlow⟩)
  have hdigest : ∀ rowSeed, memberDigest tableSeed rowSeed a = memberDigest tableSeed rowSeed b :=
    fun rowSeed => by rw [memberDigest, memberDigest, buildScoreBuf_congr hident]
  have hne : members.isEmpty = false := by simpa using List.ne_nil_of_mem ha
  simp only [fwdGenBlock, hne, Bool.false_eq_true, if_false]
  split
  · exact hshadow _ (by rw [hdigest])
  · exact hshadow _ (by rw [hdigest, hweight])

end Marlin
