import Mathlib.Data.Nat.Bitwise
import Marlin.Bpf.Wire
import Marlin.Bpf.LbCore

/-!
# Connection IDs that name a backend

The connection-ID format of `docs/design/30-quic.md`, written as the encoder that a
backend runs, and that `marlin_lb_quic_decode` inverts it: on the bytes that the
datapath reads, decoding to `id` and being the encoding of `id` are the same thing.
-/

namespace Marlin

/-! ## The format -/

/-- The 24 hashed bytes: the domain tag, the entropy, zeros. -/
def quicCidBuffer (entropy : List UInt8) : List UInt8 :=
  0x51 :: entropy ++ List.replicate (23 - entropy.length) 0

def quicCidMask (hashKey : Key16) (entropy : List UInt8) : UInt64 :=
  marlinSiphash (quicCidBuffer entropy) hashKey

def quicCidEncode (hashKey : Key16) (id : Nat) (entropy : List UInt8) : List UInt8 :=
  let mask := (quicCidMask hashKey entropy).toNat
  let obfuscated := id ^^^ mask % 65536
  UInt8.ofNat (mask / 65536 % 64) :: UInt8.ofNat (obfuscated / 256) :: UInt8.ofNat obfuscated ::
    entropy

theorem quicCidEncode_length (hashKey : Key16) (id : Nat) (entropy : List UInt8) :
    (quicCidEncode hashKey id entropy).length = entropy.length + 3 := rfl

theorem marlinQuicInput_eq {entropy : List UInt8} (h : entropy.length ≤ 17) :
    marlinQuicInput entropy = quicCidBuffer entropy := by
  have hpad : ∀ n, entropy.length ≤ n → (List.range n).map (fun i => entropy.getD i 0) =
      entropy ++ List.replicate (n - entropy.length) 0 := by
    intro n hn
    apply List.ext_getElem
    · simp
      omega
    · intro i hi _
      rw [List.getElem_map, List.getElem_range]
      by_cases hlt : i < entropy.length
      · rw [List.getElem_append_left hlt, List.getD_eq_getElem _ _ hlt]
      · rw [List.getElem_append_right (by omega), List.getElem_replicate,
          List.getD_eq_default _ _ (by omega)]
  have hzeros : ([0, 0, 0, 0, 0, 0] : List UInt8) = List.replicate 6 0 := rfl
  have hcount : 17 - entropy.length + 6 = 23 - entropy.length := by omega
  rw [marlinQuicInput, hpad 17 h, quicCidBuffer, hzeros, List.cons_append, List.append_assoc,
    List.replicate_append_replicate, hcount]
  rfl

/-! ## The three header bytes -/

private theorem checkByte_eq (format : UInt8) (mask : Nat) :
    format &&& marlinQuicCidGenMask = 0 ∧
        format &&& marlinQuicCidCheckMask = UInt8.ofNat mask &&& marlinQuicCidCheckMask ↔
      format = UInt8.ofNat (mask % 64) := by
  have hgen : format.toNat &&& 192 = 0 ↔ format.toNat / 64 % 4 = 0 := by
    have hfin : ∀ n : Fin 256, n.val &&& 192 = 0 ↔ n.val / 64 % 4 = 0 := by
      decide +kernel
    exact hfin ⟨format.toNat, format.toNat_lt⟩
  have hlow : ∀ n : Nat, n &&& 63 = n % 64 := fun n => Nat.and_two_pow_sub_one_eq_mod n 6
  have hlt := format.toNat_lt
  simp only [marlinQuicCidGenMask, marlinQuicCidCheckMask, ← UInt8.toNat_inj, UInt8.toNat_and,
    UInt8.toNat_ofNat', UInt8.reduceToNat, hgen, hlow, UInt8.toNat_zero]
  omega

private theorem word_toNat (b1 b2 : UInt8) :
    ((b1.toUInt32 <<< 8) ||| b2.toUInt32).toNat = b1.toNat * 256 + b2.toNat := by
  have h1 := b1.toNat_lt
  have h2 := b2.toNat_lt
  have hshift : (b1.toUInt32 <<< 8).toNat = b1.toNat <<< 8 := by
    rw [UInt32.toNat_shiftLeft]
    simp only [UInt8.toNat_toUInt32, UInt32.reduceToNat, Nat.shiftLeft_eq, Nat.reduceMod,
      Nat.reducePow]
    omega
  rw [UInt32.toNat_or, hshift, UInt8.toNat_toUInt32,
    ← Nat.shiftLeft_add_eq_or_of_lt (by omega : b2.toNat < 2 ^ 8), Nat.shiftLeft_eq]

private theorem idBytes_eq (b1 b2 : UInt8) (mask : UInt64) {id : Nat} (hid : id < 65536) :
    (((b1.toUInt32 <<< 8) ||| b2.toUInt32) ^^^ (mask &&& 0xffff).toUInt32).toNat = id ↔
      b1 = UInt8.ofNat ((id ^^^ mask.toNat % 65536) / 256) ∧
        b2 = UInt8.ofNat (id ^^^ mask.toNat % 65536) := by
  have hmask : (mask &&& 0xffff).toUInt32.toNat = mask.toNat % 65536 := by
    rw [UInt64.toNat_toUInt32, UInt64.toNat_and]
    simp only [UInt64.reduceToNat]
    rw [show (65535 : Nat) = 2 ^ 16 - 1 from rfl, Nat.and_two_pow_sub_one_eq_mod]
    omega
  have hlt : id ^^^ mask.toNat % 65536 < 65536 :=
    Nat.xor_lt_two_pow (n := 16) hid (Nat.mod_lt _ (by decide))
  have h1 := b1.toNat_lt
  have h2 := b2.toNat_lt
  rw [UInt32.toNat_xor, word_toNat, hmask, ← UInt8.toNat_inj, ← UInt8.toNat_inj,
    UInt8.toNat_ofNat', UInt8.toNat_ofNat']
  generalize hobf : id ^^^ mask.toNat % 65536 = obf at hlt ⊢
  have hcancel : (b1.toNat * 256 + b2.toNat) ^^^ mask.toNat % 65536 = id ↔
      b1.toNat * 256 + b2.toNat = obf := by
    rw [← hobf]
    constructor
    · intro h
      rw [← h, Nat.xor_assoc, Nat.xor_self, Nat.xor_zero]
    · intro h
      rw [h, Nat.xor_assoc, Nat.xor_self, Nat.xor_zero]
  rw [hcancel]
  omega

def quicCidId (b0 b1 b2 : UInt8) (mask : UInt64) : Nat :=
  let id := ((b1.toUInt32 <<< 8) ||| b2.toUInt32) ^^^ (mask &&& 0xffff).toUInt32
  if b0 &&& marlinQuicCidGenMask ≠ 0 then marlinNoBackend
  else if b0 &&& marlinQuicCidCheckMask ≠ (mask >>> 16).toUInt8 &&& marlinQuicCidCheckMask then
    marlinNoBackend
  else if id.toNat ≥ maxBackends then marlinNoBackend
  else id.toNat

/-- The generation, check and range tests leave no second preimage. -/
theorem quicCidId_eq_iff (b0 b1 b2 : UInt8) (mask : UInt64) {id : Nat}
    (hid : id ≠ marlinNoBackend) :
    quicCidId b0 b1 b2 mask = id ↔
      id < maxBackends ∧ b0 = UInt8.ofNat (mask.toNat / 65536 % 64) ∧
        b1 = UInt8.ofNat ((id ^^^ mask.toNat % 65536) / 256) ∧
        b2 = UInt8.ofNat (id ^^^ mask.toNat % 65536) := by
  have hnone : ¬marlinNoBackend = id := fun h => hid h.symm
  have hshift : (mask >>> 16).toUInt8 = UInt8.ofNat (mask.toNat / 65536) := by
    rw [← UInt8.toNat_inj, UInt64.toNat_toUInt8, UInt64.toNat_shiftRight, UInt8.toNat_ofNat',
      Nat.shiftRight_eq_div_pow]
    rfl
  have hcheck := checkByte_eq b0 (mask.toNat / 65536)
  simp only [quicCidId, hshift, ne_eq]
  by_cases hb0 : b0 = UInt8.ofNat (mask.toNat / 65536 % 64)
  · obtain ⟨hgen, hlow⟩ := hcheck.mpr hb0
    rw [if_neg (not_not.mpr hgen), if_neg (not_not.mpr hlow)]
    by_cases hrange : ((b1.toUInt32 <<< 8 ||| b2.toUInt32) ^^^
        (mask &&& 0xffff).toUInt32).toNat ≥ maxBackends
    · rw [if_pos hrange]
      refine iff_of_false hnone ?_
      rintro ⟨hlt, -, hbytes⟩
      rw [(idBytes_eq b1 b2 mask (by simp only [maxBackends] at hlt; omega)).mpr hbytes] at hrange
      omega
    · rw [if_neg hrange]
      constructor
      · intro heq
        have hlt : id < maxBackends := by omega
        exact ⟨hlt, hb0,
          (idBytes_eq b1 b2 mask (by simp only [maxBackends] at hlt; omega)).mp heq⟩
      · rintro ⟨hlt, -, hbytes⟩
        exact (idBytes_eq b1 b2 mask (by simp only [maxBackends] at hlt; omega)).mpr hbytes
  · refine iff_of_false ?_ fun h => hb0 h.2.1
    split
    · exact hnone
    · next hgen =>
      split
      · exact hnone
      · next hlow => exact absurd (hcheck.mp ⟨not_not.mp hgen, not_not.mp hlow⟩) hb0

/-! ## Decoding -/

def Frame.slice (frame : Frame) (pos len : Nat) : List UInt8 :=
  (List.range len).map fun i => frame.byte (pos + i)

theorem Frame.slice_length (frame : Frame) (pos len : Nat) :
    (frame.slice pos len).length = len := by
  simp [Frame.slice]

theorem Frame.slice_add (frame : Frame) (pos m n : Nat) :
    frame.slice pos (m + n) = frame.slice pos m ++ frame.slice (pos + m) n := by
  simp [Frame.slice, List.range_add, Function.comp_def, Nat.add_assoc]

def MarlinCtx.cidPos (pkt : MarlinCtx) : Nat := pkt.l4Off + marlinUdpHlen + 1

/-- The decoder's guards and reads go through. -/
structure CidReadable (host : Host) (vip : VipMeta) (x : Xdp) : Prop where
  whole : x.pkt.flags &&& marlinCtxFFragAny = 0
  min : marlinQuicCidMin ≤ vipQuicCidLen vip.flags
  max : vipQuicCidLen vip.flags ≤ marlinQuicCidMax
  declared : 1 + vipQuicCidLen vip.flags ≤ x.pkt.udpPayloadLen
  header : host.loadBytesFails x.pkt.cidPos 3 = false
  entropy : host.loadBytesFails (x.pkt.cidPos + 3) (vipQuicCidLen vip.flags - 3) = false
  present : x.pkt.cidPos + vipQuicCidLen vip.flags ≤ x.frame.length

/-- Besides, the bytes that are read encode `id`. -/
structure CarriesCid (host : Host) (vip : VipMeta) (x : Xdp) (id : Nat) : Prop
    extends CidReadable host vip x where
  encoded : x.frame.slice x.pkt.cidPos (vipQuicCidLen vip.flags) =
    quicCidEncode vip.hashKey id
      (x.frame.slice (x.pkt.cidPos + 3) (vipQuicCidLen vip.flags - 3))

private theorem slice_encoded_iff (frame : Frame) (pos : Nat) {clen : Nat} (hclen : 3 ≤ clen)
    (hashKey : Key16) (id : Nat) (entropy : List UInt8)
    (h : entropy = frame.slice (pos + 3) (clen - 3)) :
    frame.slice pos clen = quicCidEncode hashKey id entropy ↔
      frame.byte pos = UInt8.ofNat ((quicCidMask hashKey entropy).toNat / 65536 % 64) ∧
      frame.byte (pos + 1) =
        UInt8.ofNat ((id ^^^ (quicCidMask hashKey entropy).toNat % 65536) / 256) ∧
      frame.byte (pos + 2) =
        UInt8.ofNat (id ^^^ (quicCidMask hashKey entropy).toNat % 65536) := by
  have hsplit : frame.slice pos clen =
      frame.byte pos :: frame.byte (pos + 1) :: frame.byte (pos + 2) :: entropy := by
    have hcount : clen = 3 + (clen - 3) := by omega
    rw [hcount, Frame.slice_add, h]
    simp [Frame.slice, List.range_succ]
  rw [hsplit, quicCidEncode]
  simp only [List.cons.injEq, and_true]

theorem carriesCid_iff {host : Host} {vip : VipMeta} {x : Xdp} {id : Nat} :
    CarriesCid host vip x id ↔ CidReadable host vip x ∧
      x.frame.slice x.pkt.cidPos (vipQuicCidLen vip.flags) =
        quicCidEncode vip.hashKey id
          (x.frame.slice (x.pkt.cidPos + 3) (vipQuicCidLen vip.flags - 3)) :=
  ⟨fun h => ⟨h.toCidReadable, h.encoded⟩, fun h => ⟨h.1, h.2⟩⟩

theorem Host.loadBytes_eq_some {host : Host} {frame : Frame} {pos len : Nat}
    {bytes : List UInt8} :
    host.loadBytes frame pos len = some bytes ↔
      host.loadBytesFails pos len = false ∧ pos + len ≤ frame.length ∧
        frame.slice pos len = bytes := by
  rw [Host.loadBytes, Frame.slice]
  split
  · rename_i hfails
    refine iff_of_false (by simp) ?_
    rintro ⟨hloads, hfit, -⟩
    rcases hfails with hfails | hpast
    · rw [hloads] at hfails
      contradiction
    · exact Nat.not_le.mpr hpast hfit
  · rename_i hloads
    simp only [not_or, Bool.not_eq_true, Nat.not_lt] at hloads
    rw [Option.some.injEq]
    exact ⟨fun h => ⟨hloads.1, hloads.2, h⟩, fun h => h.2.2⟩

theorem CidReadable.of_decode {host : Host} {vip : VipMeta} {x : Xdp}
    (h : (marlinLbQuicDecode host vip x).1 ≠ marlinNoBackend) : CidReadable host vip x := by
  unfold marlinLbQuicDecode at h
  simp only [marlinQuicCidEntropyOff] at h
  split at h
  · contradiction
  rename_i hwhole
  split at h
  · contradiction
  rename_i hrange
  split at h
  · contradiction
  rename_i hdeclared
  split at h
  · contradiction
  rename_i header hheader
  split at h
  · contradiction
  split at h
  · contradiction
  rename_i entropy hentropy
  obtain ⟨hloads, -, -⟩ := Host.loadBytes_eq_some.mp hheader
  obtain ⟨hloads', hfit, -⟩ := Host.loadBytes_eq_some.mp hentropy
  simp only [not_or, Nat.not_lt] at hrange
  have hmin : 3 ≤ vipQuicCidLen vip.flags := Nat.le_trans (by decide) hrange.1
  refine ⟨not_not.mp hwhole, hrange.1, hrange.2, Nat.not_lt.mp hdeclared, hloads, hloads', ?_⟩
  have hpos : x.pkt.cidPos = x.pkt.l4Off + marlinUdpHlen + 1 := rfl
  omega

theorem CidReadable.decode {host : Host} {vip : VipMeta} {x : Xdp}
    (h : CidReadable host vip x) :
    (marlinLbQuicDecode host vip x).1 =
      quicCidId (x.frame.byte x.pkt.cidPos) (x.frame.byte (x.pkt.cidPos + 1))
        (x.frame.byte (x.pkt.cidPos + 2))
        (quicCidMask vip.hashKey
          (x.frame.slice (x.pkt.cidPos + 3) (vipQuicCidLen vip.flags - 3))) := by
  have hmin : 3 ≤ vipQuicCidLen vip.flags := Nat.le_trans (by decide) h.min
  have hpresent := h.present
  have hheader : host.loadBytes x.frame x.pkt.cidPos 3 = some (x.frame.slice x.pkt.cidPos 3) :=
    Host.loadBytes_eq_some.mpr ⟨h.header, by omega, rfl⟩
  have hentropy : host.loadBytes x.frame (x.pkt.cidPos + 3) (vipQuicCidLen vip.flags - 3) =
      some (x.frame.slice (x.pkt.cidPos + 3) (vipQuicCidLen vip.flags - 3)) :=
    Host.loadBytes_eq_some.mpr ⟨h.entropy, by omega, rfl⟩
  have hlen : (x.frame.slice (x.pkt.cidPos + 3) (vipQuicCidLen vip.flags - 3)).length ≤ 17 := by
    have hmax := h.max
    rw [Frame.slice_length]
    simp only [marlinQuicCidMax] at hmax
    omega
  have hrange : ¬(vipQuicCidLen vip.flags < marlinQuicCidMin ∨
      vipQuicCidLen vip.flags > marlinQuicCidMax) :=
    not_or.mpr ⟨Nat.not_lt.mpr h.min, Nat.not_lt.mpr h.max⟩
  have hget : ∀ i < 3, (x.frame.slice x.pkt.cidPos 3).getD i 0 =
      x.frame.byte (x.pkt.cidPos + i) := by
    intro i hi
    rw [List.getD_eq_getElem _ _ (by rw [Frame.slice_length]; exact hi)]
    simp [Frame.slice]
  simp only [marlinLbQuicDecode, marlinQuicCidEntropyOff, ← MarlinCtx.cidPos.eq_1 x.pkt]
  rw [if_neg (not_not.mpr h.whole), if_neg hrange, if_neg (Nat.not_lt.mpr h.declared), hheader]
  simp only [hentropy, hget 0 (by decide), hget 1 (by decide), hget 2 (by decide), Nat.add_zero,
    marlinQuicInput_eq hlen, apply_ite Prod.fst, quicCidMask]
  rfl

/-- Decoding to a backend means reading the encoding of that backend. -/
theorem marlinLbQuicDecode_eq_iff (host : Host) (vip : VipMeta) (x : Xdp) {id : Nat}
    (hid : id ≠ marlinNoBackend) :
    (marlinLbQuicDecode host vip x).1 = id ↔ CarriesCid host vip x id ∧ id < maxBackends := by
  rw [carriesCid_iff]
  by_cases hread : CidReadable host vip x
  · have hclen : 3 ≤ vipQuicCidLen vip.flags := Nat.le_trans (by decide) hread.min
    rw [hread.decode, quicCidId_eq_iff _ _ _ _ hid,
      slice_encoded_iff x.frame x.pkt.cidPos hclen vip.hashKey id _ rfl, and_comm]
    exact and_congr_left fun _ => (and_iff_right hread).symm
  · refine iff_of_false ?_ fun h => hread h.1.1
    rintro rfl
    exact hread (.of_decode hid)

/-! ## Unfragmented UDP frames -/

inductive Ext6Chain (frame : Frame) : Nat → Nat → UInt8 → Nat → UInt8 → Prop
  | refl (off : Nat) (nexthdr : UInt8) : Ext6Chain frame 0 off nexthdr off nexthdr
  | options {count off off' : Nat} {nexthdr proto : UInt8}
      (hnext : nexthdr = ipprotoHopopts ∨ nexthdr = ipprotoRouting ∨
        nexthdr = ipprotoDstopts)
      (hchain : Ext6Chain frame count (off + ((frame.byte (off + 1)).toNat + 1) * 8)
        (frame.byte off) off' proto) : Ext6Chain frame (count + 1) off nexthdr off' proto
  | fragment {count off off' : Nat} {proto : UInt8}
      (hwhole : (fragField6 (frame.be16 (off + 2))).Whole)
      (hchain : Ext6Chain frame count (off + 8) (frame.byte off) off' proto) :
      Ext6Chain frame (count + 1) off ipprotoFragment off' proto

inductive UdpAt (frame : Frame) : Nat → Prop
  | v4 (hether : frame.be16 12 = ethPIp) (hihl : marlinIpv4IhlMin ≤ ipv4Ihl frame ethHlen)
      (hwhole : (fragField4 (frame.be16 (ethHlen + 6))).Whole)
      (hproto : frame.byte (ethHlen + 9) = ipprotoUdp) :
      UdpAt frame (ethHlen + ipv4Ihl frame ethHlen * 4)
  | v6 {count off : Nat} (hether : frame.be16 12 = ethPIpv6) (hcount : count ≤ maxExtHdrs)
      (hchain : Ext6Chain frame count (ethHlen + 40) (frame.byte (ethHlen + 6)) off
        ipprotoUdp) : UdpAt frame off

section Parse

variable {frame : Frame} {count off off' l4Off : Nat} {nexthdr proto : UInt8}

theorem Ext6Chain.bounds (h : Ext6Chain frame count off nexthdr off' proto) :
    off ≤ off' ∧ off' ≤ off + count * 2048 := by
  induction h with
  | refl off nexthdr => omega
  | @options _ off _ _ _ hnext hchain ih =>
      have hbyte := (frame.byte (off + 1)).toNat_lt
      omega
  | fragment hwhole hchain ih => omega

theorem marlinWalkExt6Loop_chain (hchain : Ext6Chain frame count off nexthdr off' proto)
    (hupper : marlinIsExt6 proto = false) (hproto : marlinProtoUnsupported proto = false)
    (hpresent : off' ≤ frame.length) {maxExt n i : Nat} (hn : count < n)
    (hi : i + count ≤ maxExt) {out : MarlinL3} (hflags : out.flags = 0) :
    marlinWalkExt6Loop frame maxExt n i off nexthdr out =
      .ok { out with proto := proto, l4Off := off' } := by
  induction hchain generalizing n i with
  | refl off nexthdr =>
      cases n with
      | zero => omega
      | succ n => simp [marlinWalkExt6Loop, hproto, hupper]
  | @options _ off _ _ _ hnext hchain ih =>
      have hbounds := hchain.bounds
      cases n with
      | zero => omega
      | succ n =>
          have hrest := ih hupper hproto hpresent (n := n) (i := i + 1) (by omega) (by omega)
          rw [marlinWalkExt6Loop_options_eq hnext, if_neg (by omega), if_neg (by omega), hrest]
  | @fragment _ off _ _ hwhole hchain ih =>
      have hbounds := hchain.bounds
      cases n with
      | zero => omega
      | succ n =>
          have hrest := ih hupper hproto hpresent (n := n) (i := i + 1) (by omega) (by omega)
          have hlater : ¬(out.flags &&& marlinCtxFFrag != 0) = true := by
            rw [hflags]
            decide
          rw [marlinWalkExt6Loop_fragment_eq, marlinWalkFrag6_whole hflags hwhole,
            if_neg (by omega), if_neg (by omega), if_neg (by omega), if_neg hlater, hrest]

theorem UdpAt.parseL3 (h : UdpAt frame l4Off) (hpresent : l4Off ≤ frame.length) :
    l4Off < 65536 ∧ ethHlen ≤ frame.length ∧
      ∃ family src dst, marlinEthFamily frame = some family ∧
        marlinParseL3 frame marlinL3OffEth family maxExtHdrs =
          .ok ⟨src, dst, l4Off, 0, ipprotoUdp, false⟩ ∧
        marlinProtoIsIcmp family ipprotoUdp = false := by
  cases h with
  | v4 hether hihl hwhole hproto =>
      have hlt : ipv4Ihl frame ethHlen < 16 := Nat.mod_lt _ (by decide)
      simp only [marlinIpv4IhlMin, ethHlen] at hihl hpresent hlt ⊢
      refine ⟨by omega, by omega, afInet, ⟨frame.be32 26, 0, 0, 0⟩, ⟨frame.be32 30, 0, 0, 0⟩,
        by simp [marlinEthFamily, hether], ?_, by decide⟩
      have hshort : ¬marlinL3OffEth + 20 > frame.length := by
        simp only [marlinL3OffEth, ethHlen]
        omega
      have hmin : ¬ipv4Ihl frame marlinL3OffEth < marlinIpv4IhlMin := Nat.not_lt.mpr hihl
      have hlong : ¬marlinL3OffEth + ipv4Ihl frame marlinL3OffEth * 4 > frame.length :=
        Nat.not_lt.mpr hpresent
      have hflags : marlinParseFrag4 (frame.be16 (marlinL3OffEth + 6)) = 0 := by
        have hfield : (fragField4 (frame.be16 (marlinL3OffEth + 6))).Whole := hwhole
        simp [marlinParseFrag4_eq, hfield.1, hfield.2]
      have hudp : frame.byte (marlinL3OffEth + 9) = ipprotoUdp := hproto
      simp only [marlinParseL3, beq_self_eq_true, if_true, hshort, hmin, hlong, if_false, hflags,
        hudp]
      rfl
  | @v6 count _ hether hcount hchain =>
      have hbounds := hchain.bounds
      have hfew : count ≤ maxExtHdrs := hcount
      simp only [ethHlen, maxExtHdrs] at hbounds hcount ⊢
      refine ⟨by omega, by omega, afInet6, frame.addr 22, frame.addr 38,
        by simp [marlinEthFamily, hether, show ethPIpv6 ≠ ethPIp by decide], ?_, by decide⟩
      have hshort : ¬marlinL3OffEth + 40 > frame.length := by
        simp only [marlinL3OffEth, ethHlen]
        omega
      have hfamily : (afInet6 == afInet) = false := by decide
      simp only [marlinParseL3, hfamily, Bool.false_eq_true, if_false, hshort, marlinWalkExt6]
      exact marlinWalkExt6Loop_chain hchain (by decide) (by decide) hpresent
        (Nat.lt_succ_of_le hfew) (by rw [Nat.zero_add]; exact hfew) rfl

theorem UdpAt.parsed (h : UdpAt frame l4Off) (cfg : MarlinConfig)
    (hpresent : l4Off + 9 ≤ frame.length)
    (hdeclared : marlinUdpHlen < (frame.be16 (l4Off + 4)).toNat)
    (hshort : frame.byte (l4Off + 8) &&& marlinQuicLongHeader = 0) :
    frame.Accepted cfg ∧ (frame.parsed cfg).l4Off = l4Off ∧
      (frame.parsed cfg).flags = marlinCtxFQuic ∧
      (frame.parsed cfg).udpPayloadLen =
        min ((frame.be16 (l4Off + 4)).toNat - marlinUdpHlen) 255 := by
  obtain ⟨hlt, heth, family, src, dst, hfamily, hl3, hicmp⟩ := h.parseL3 (by omega)
  have hlen : ¬ethHlen > frame.length := Nat.not_lt.mpr heth
  have hports : ¬l4Off + 4 > frame.length := by omega
  have hudp : ¬l4Off + 8 > frame.length := by omega
  have hform : ¬l4Off + 9 > frame.length := by omega
  have hheader : ¬(frame.be16 (l4Off + 4)).toNat < marlinUdpHlen := by omega
  have hclamp : (if (frame.be16 (l4Off + 4)).toNat - marlinUdpHlen > 0xff then 0xff
      else (frame.be16 (l4Off + 4)).toNat - marlinUdpHlen) =
      min ((frame.be16 (l4Off + 4)).toNat - marlinUdpHlen) 255 := by
    split <;> omega
  have hpayload : ¬min ((frame.be16 (l4Off + 4)).toNat - marlinUdpHlen) 255 = 0 := by omega
  have hquic : ∀ mctx : MarlinCtx, marlinParseQuic frame l4Off mctx = (marlinCtxFQuic,
      { mctx with
        udpPayloadLen := min ((frame.be16 (l4Off + 4)).toNat - marlinUdpHlen) 255 }) := by
    intro mctx
    simp only [marlinParseQuic, hudp, hheader, hclamp, hpayload, hform, hshort, if_false,
      beq_self_eq_true, if_true]
  have hl4 : ∀ mctx : MarlinCtx, mctx.flags = 0 →
      marlinParseL4 frame family ⟨src, dst, l4Off, 0, ipprotoUdp, false⟩ mctx =
        (.ok, mctx.withPorts frame l4Off marlinCtxFQuic
          (min ((frame.be16 (l4Off + 4)).toNat - marlinUdpHlen) 255)) := by
    intro mctx hflags
    have hproto : marlinProtoUnsupported ipprotoUdp = false := by decide
    have hhas : (!marlinProtoHasPorts ipprotoUdp) = false := by decide
    have hno : ((0 : UInt32) &&& marlinCtxFFrag != 0) = false := by decide
    simp only [marlinParseL4, marlinParsePorts, hproto, hhas, hicmp, hflags, hno, hports, hquic,
      Bool.false_eq_true, if_false, beq_self_eq_true, if_true, MarlinCtx.withPorts]
  have hflags : (({ MarlinCtx.start cfg with pktLen := frame.length % 65536 } :
      MarlinCtx).withL3 family ⟨src, dst, l4Off, 0, ipprotoUdp, false⟩).flags = 0 :=
    UInt32.or_zero
  have hparse : marlinParse frame (MarlinCtx.start cfg) = (.ok, MarlinCtx.withPorts
      (({ MarlinCtx.start cfg with pktLen := frame.length % 65536 } : MarlinCtx).withL3 family
        ⟨src, dst, l4Off, 0, ipprotoUdp, false⟩) frame l4Off marlinCtxFQuic
      (min ((frame.be16 (l4Off + 4)).toNat - marlinUdpHlen) 255)) := by
    simp only [marlinParse, hlen, if_false, hfamily, hl3]
    exact hl4 _ hflags
  rw [Frame.Accepted, Frame.parsed, hparse]
  refine ⟨rfl, Nat.mod_eq_of_lt hlt, ?_, rfl⟩
  simp only [MarlinCtx.withPorts, hflags, UInt32.zero_or]

end Parse

/-! ## Steering -/

structure ShortHeaderAt (frame : Frame) (l4Off : Nat) (cid : List UInt8) : Prop where
  udp : UdpAt frame l4Off
  declared : marlinUdpHlen + 1 + cid.length ≤ (frame.be16 (l4Off + 4)).toNat
  form : frame.byte (l4Off + 8) &&& marlinQuicLongHeader = 0
  present : cid <+: frame.drop (l4Off + 9)

theorem ShortHeaderAt.length_le {frame : Frame} {l4Off : Nat} {cid : List UInt8}
    (h : ShortHeaderAt frame l4Off cid) (hne : cid ≠ []) :
    l4Off + 9 + cid.length ≤ frame.length := by
  have hle := h.present.length_le
  have hpos := List.length_pos_iff.mpr hne
  rw [List.length_drop] at hle
  omega

theorem Frame.slice_of_isPrefix {frame : Frame} {pos : Nat} {bytes : List UInt8}
    (h : bytes <+: frame.drop pos) : frame.slice pos bytes.length = bytes := by
  obtain ⟨rest, hrest⟩ := h
  apply List.ext_getElem
  · exact frame.slice_length pos _
  · intro i _ hi
    have hbyte : frame[pos + i]? = bytes[i]? := by
      rw [← List.getElem?_drop, ← hrest, List.getElem?_append_left hi]
    simp [Frame.slice, Frame.byte, hbyte, hi]

theorem ShortHeaderAt.carriesCid {frame : Frame} {l4Off id : Nat} {entropy : List UInt8}
    {vip : VipMeta} {cfg : MarlinConfig} {host : Host} {x : Xdp}
    (h : ShortHeaderAt frame l4Off (quicCidEncode vip.hashKey id entropy))
    (hlen : entropy.length + 3 = vipQuicCidLen vip.flags)
    (hmin : marlinQuicCidMin ≤ vipQuicCidLen vip.flags)
    (hmax : vipQuicCidLen vip.flags ≤ marlinQuicCidMax)
    (hload : ∀ pos len, host.loadBytesFails pos len = false) (hx : x.Holds frame cfg) :
    x.pkt.flags &&& marlinCtxFQuic ≠ 0 ∧ CarriesCid host vip x id := by
  have hcid := quicCidEncode_length vip.hashKey id entropy
  have hlength := h.length_le (List.cons_ne_nil _ _)
  have hdeclared := h.declared
  rw [hcid] at hlength hdeclared
  obtain ⟨-, hl4Off, hflags, hpayload⟩ := h.udp.parsed cfg (by omega) (by omega) h.form
  obtain ⟨rfl, verdict, hpkt⟩ := hx
  have hpos : x.pkt.cidPos = l4Off + 9 := by
    rw [hpkt]
    simp only [MarlinCtx.cidPos, hl4Off, marlinUdpHlen]
  have hslice := Frame.slice_of_isPrefix h.present
  rw [hcid, hlen] at hslice
  have htail : x.frame.slice (l4Off + 9 + 3) (vipQuicCidLen vip.flags - 3) = entropy := by
    have hsplit := x.frame.slice_add (l4Off + 9) 3 (vipQuicCidLen vip.flags - 3)
    rw [show 3 + (vipQuicCidLen vip.flags - 3) = vipQuicCidLen vip.flags by omega, hslice,
      ← List.take_append_drop 3 (quicCidEncode vip.hashKey id entropy)] at hsplit
    exact (List.append_inj_right hsplit (by rw [Frame.slice_length]; rfl)).symm
  have hpktFlags : x.pkt.flags = marlinCtxFQuic := by rw [hpkt]; exact hflags
  refine ⟨by rw [hpktFlags]; decide, ⟨by rw [hpktFlags]; decide, hmin, hmax, ?_, hload _ _,
    hload _ _, by rw [hpos]; omega⟩, by rw [hpos, hslice, htail]⟩
  have hlenPkt : x.pkt.udpPayloadLen =
      min ((x.frame.be16 (l4Off + 4)).toNat - marlinUdpHlen) 255 := by
    rw [hpkt]
    exact hpayload
  rw [hlenPkt]
  simp only [marlinQuicCidMax] at hmax
  omega

/--
A packet whose connection ID encodes a backend that is up goes to that backend, and only
an encoding of a backend decodes to it.
-/
theorem quicCid_steers :
    (∀ (host : Host) (maps : Maps) (vip : VipMeta),
      (∀ pos len, host.loadBytesFails pos len = false) → vip.flags &&& vipQuic ≠ 0 →
      marlinQuicCidMin ≤ vipQuicCidLen vip.flags → vipQuicCidLen vip.flags ≤ marlinQuicCidMax →
      ∀ (id : Nat) (entropy : List UInt8) (frame : Frame) (l4Off : Nat),
        id ≠ marlinNoBackend → id < maxBackends →
        (maps.backends id).flags &&& marlinBeFState ≠ 0 →
        entropy.length + 3 = vipQuicCidLen vip.flags →
        ShortHeaderAt frame l4Off (quicCidEncode vip.hashKey id entropy) →
        frame.Accepted maps.config ∧ ∀ x : Xdp, x.Holds frame maps.config →
          (marlinLbSelectBackend host maps vip x).1 = some (maps.backends id)) ∧
    ∀ (host : Host) (vip : VipMeta) (x : Xdp),
      (marlinLbQuicDecode host vip x).1 ≠ marlinNoBackend →
      x.frame.slice x.pkt.cidPos (vipQuicCidLen vip.flags) =
        quicCidEncode vip.hashKey (marlinLbQuicDecode host vip x).1
          (x.frame.slice (x.pkt.cidPos + 3) (vipQuicCidLen vip.flags - 3)) := by
  constructor
  · intro host maps vip hload hquic hmin hmax id entropy frame l4Off hid hlt hup hlen hframe
    have hlength := hframe.length_le (List.cons_ne_nil _ _)
    have hdeclared := hframe.declared
    rw [quicCidEncode_length] at hlength hdeclared
    refine ⟨(hframe.udp.parsed maps.config (by omega) (by omega) hframe.form).1, fun x hx => ?_⟩
    obtain ⟨hflag, hcarries⟩ := hframe.carriesCid hlen hmin hmax hload hx
    have hdecode := (marlinLbQuicDecode_eq_iff host vip x hid).mpr ⟨hcarries, hlt⟩
    have hselect : (marlinLbSelectBackendQuic host maps vip x).1 = some (maps.backends id) := by
      simp only [marlinLbSelectBackendQuic, hdecode, if_neg hid, Maps.backendAt, if_pos hlt,
        if_neg hup]
    simp only [marlinLbSelectBackend, if_pos (And.intro hquic hflag)]
    split
    · next be y hsome =>
      rw [hsome] at hselect
      exact hselect
    · next y hnone =>
      rw [hnone] at hselect
      cases hselect
  · intro host vip x hne
    exact ((marlinLbQuicDecode_eq_iff host vip x hne).mp rfl).1.encoded

namespace Sample

def quicVip : VipMeta := ⟨0, vipQuic ||| 0x700, Vector.replicate 16 0⟩

def quicCid : List UInt8 := quicCidEncode quicVip.hashKey 9 [1, 2, 3, 4]

def quicFrame : Frame :=
  [2, 0, 0, 0, 0, 1, 2, 0, 0, 0, 0, 2, 8, 0,
    0x45, 0, 0, 36, 0, 0, 0x40, 0, 64, 17, 0, 0, 198, 51, 100, 7, 192, 0, 2, 1,
    4, 210, 1, 187, 0, 16, 0, 0, 0x40] ++ quicCid

theorem quicFrame_shortHeaderAt : ShortHeaderAt quicFrame 34 quicCid where
  udp := .v4 (by decide) (by decide) ⟨by decide, by decide⟩ (by decide)
  declared := by decide
  form := by decide
  present := ⟨[], by rfl⟩

def slotMaps (flags : UInt8) : Maps :=
  { Maps.fresh with backends := fun _ => { (0 : Backend) with flags := flags } }

end Sample

theorem quicCid_steers_short :
    ∃ x : Xdp, x.Holds Sample.quicFrame (Sample.slotMaps marlinBeFState).config ∧
      (marlinLbSelectBackend Sample.host (Sample.slotMaps marlinBeFState) Sample.quicVip x).1 =
        some ((Sample.slotMaps marlinBeFState).backends 9) := by
  have hsteers := (quicCid_steers.1 Sample.host (Sample.slotMaps marlinBeFState) Sample.quicVip
    (fun _ _ => rfl) (by decide) (by decide) (by decide) 9 [1, 2, 3, 4] Sample.quicFrame 34
    (by decide) (by decide) (by decide) (by decide) Sample.quicFrame_shortHeaderAt).2
  have hholds := Xdp.holds_parsed Sample.quicFrame (Sample.slotMaps marlinBeFState).config
    Sample.counters fun _ => none
  exact ⟨_, hholds, hsteers _ hholds⟩

end Marlin
