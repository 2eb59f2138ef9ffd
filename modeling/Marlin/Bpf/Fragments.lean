import Mathlib.Algebra.BigOperators.Ring.List
import Marlin.Bpf.LbCore
import Marlin.Bpf.Wire

/-!
# Fragments of one datagram stay together

A later fragment shows no ports and no extension headers behind its Fragment
header, a first fragment shows both.  Selection must not depend on which of them it
looks at.
-/

namespace Marlin

/-! ## Datagrams and their fragments -/

inductive Network where
  | v4 (src dst : Be32) (proto : UInt8)
  /--
  `first` announces the extension headers `unfragmentable`, which lead to the
  Fragment header; `proto` is that header's Next Header.
  -/
  | v6 (src dst : Addr) (first : UInt8) (unfragmentable : List UInt8) (proto : UInt8)
  deriving DecidableEq, Repr

namespace Network

def family : Network → UInt8
  | .v4 .. => afInet
  | .v6 .. => afInet6

def src : Network → Addr
  | .v4 src _ _ => ⟨src, 0, 0, 0⟩
  | .v6 src _ _ _ _ => src

def dst : Network → Addr
  | .v4 _ dst _ => ⟨dst, 0, 0, 0⟩
  | .v6 _ dst _ _ _ => dst

def proto : Network → UInt8
  | .v4 _ _ proto => proto
  | .v6 _ _ _ _ proto => proto

def WellFormed : Network → Prop
  | .v4 .. => True
  | .v6 _ _ first unfragmentable _ =>
      ∃ frags, Ext6Path unfragmentable 0 first frags unfragmentable.length ipprotoFragment

/-- The upper-layer protocol is out of reach: it is ESP or AH, or behind more headers. -/
def Unreachable : Network → Prop
  | .v4 _ _ proto => proto = ipprotoEsp ∨ proto = ipprotoAh
  | .v6 _ _ _ _ proto =>
      (proto = ipprotoEsp ∨ proto = ipprotoAh) ∨ marlinIsExt6 proto = true

def IsIcmp (network : Network) : Prop :=
  network.proto = if network.family = afInet then ipprotoIcmp else ipprotoIcmpv6

theorem not_unreachable {network : Network}
    (hproto : marlinProtoUnsupported network.proto = false)
    (hext : network.family = afInet6 → marlinIsExt6 network.proto = false) :
    ¬network.Unreachable := by
  simp only [marlinProtoUnsupported, Bool.or_eq_false_iff, beq_eq_false_iff_ne] at hproto
  cases network with
  | v4 => exact fun h => h.elim hproto.1 hproto.2
  | v6 =>
      rintro (h | h)
      · exact h.elim hproto.1 hproto.2
      · exact Bool.noConfusion (h.symm.trans (hext rfl))

theorem not_isIcmp {network : Network} (h : ¬network.IsIcmp) :
    marlinProtoIsIcmp network.family network.proto = false := by
  have hfamily : network.family = afInet ∨ network.family = afInet6 := by
    cases network <;> simp [family]
  have hne : afInet6 ≠ afInet := by decide
  rcases hfamily with hfamily | hfamily
  · simpa [marlinProtoIsIcmp, IsIcmp, hfamily, hne.symm] using h
  · simpa [marlinProtoIsIcmp, IsIcmp, hfamily, hne] using h

inductive Heads (frame : Frame) (field : FragField) : Network → Nat → Prop
  | v4 {src dst : Be32} {proto : UInt8} (hether : frame.be16 12 = ethPIp)
      (hihl : 5 ≤ (frame.byte 14).toNat % 16) (hproto : frame.byte 23 = proto)
      (hsrc : frame.be32 26 = src) (hdst : frame.be32 30 = dst)
      (hfield : fragField4 (frame.be16 20) = field) :
      Heads frame field (.v4 src dst proto) (14 + (frame.byte 14).toNat % 16 * 4)
  | v6 {src dst : Addr} {first proto : UInt8} {unfragmentable : List UInt8}
      (hether : frame.be16 12 = ethPIpv6) (hfirst : frame.byte 20 = first)
      (hsrc : frame.addr 22 = src) (hdst : frame.addr 38 = dst)
      (hpart : (frame.drop 54).take unfragmentable.length = unfragmentable)
      (hproto : frame.byte (54 + unfragmentable.length) = proto)
      (hfield : fragField6 (frame.be16 (54 + unfragmentable.length + 2)) = field) :
      Heads frame field (.v6 src dst first unfragmentable proto)
        (54 + unfragmentable.length + 8)

end Network

/-- A datagram with the payload that is cut up: for IPv6, the Fragmentable Part. -/
structure Datagram where
  network : Network
  payload : List UInt8
  wellFormed : network.WellFormed
  length_lt : payload.length < 65536

/-- Lengths of the pieces of a cut: all but the last are multiples of eight bytes. -/
structure Cut (total : Nat) (lens : List Nat) : Prop where
  pos : ∀ len ∈ lens, 0 < len
  aligned : ∀ len ∈ lens.dropLast, len % 8 = 0
  total : lens.sum = total
  several : 2 ≤ lens.length

def Datagram.Fragment (d : Datagram) (start len : Nat) (more : Bool) (frame : Frame) : Prop :=
  ∃ off, d.network.Heads frame ⟨start / 8, more⟩ off ∧
    (frame.drop off).take len = (d.payload.drop start).take len

def Datagram.FragmentedInto (d : Datagram) (frames : List Frame) : Prop :=
  ∃ lens, Cut d.payload.length lens ∧ frames.length = lens.length ∧
    ∀ k (hk : k < frames.length),
      d.Fragment (lens.take k).sum (lens.getD k 0) (decide (k + 1 < lens.length))
        frames[k]

theorem Cut.not_whole {total : Nat} {lens : List Nat} (h : Cut total lens) {k : Nat}
    (hk : k < lens.length) :
    ¬FragField.Whole ⟨(lens.take k).sum / 8, decide (k + 1 < lens.length)⟩ := by
  rintro ⟨hoffset, hmore⟩
  have hlast : ¬k + 1 < lens.length := by simpa using hmore
  have htake : lens.take k = lens.dropLast := by
    rw [List.dropLast_eq_take]
    congr 1
    omega
  have haligned : 8 ∣ lens.dropLast.sum :=
    List.dvd_sum fun len hlen => Nat.dvd_of_mod_eq_zero (h.aligned len hlen)
  have hpos : 0 < lens.dropLast.sum := by
    obtain ⟨a, b, rest, rfl⟩ : ∃ a b rest, lens = a :: b :: rest := by
      match lens, h.several with
      | a :: b :: rest, _ => exact ⟨a, b, rest, rfl⟩
    have ha := h.pos a (by simp)
    simp only [List.dropLast_cons_cons, List.sum_cons]
    omega
  simp only [htake] at hoffset
  omega

/-! ## The walk up to the Fragment header -/

section Walk

variable {frame : Frame} {maxExt n i off off' : Nat} {nexthdr nexthdr' : UInt8}
  {frags : List Be16} {out l3 : MarlinL3}

theorem Ext6Path.isExt6 (hpath : Ext6Path frame off nexthdr frags off' nexthdr')
    (h : marlinIsExt6 nexthdr' = true) : marlinIsExt6 nexthdr = true := by
  cases hpath with
  | refl => exact h
  | options hnext => rcases hnext with rfl | rfl | rfl <;> rfl
  | fragment => rfl

theorem Ext6Path.shift {part : List UInt8} {base : Nat}
    (hpath : Ext6Path part off nexthdr frags off' nexthdr')
    (hsame : ∀ j < off', Frame.byte part j = frame.byte (base + j)) :
    Ext6Path frame (base + off) nexthdr frags (base + off') nexthdr' := by
  induction hpath with
  | refl => exact .refl _ _
  | @options off _ _ _ _ hnext hpath ih =>
      have hle := hpath.le
      have h0 := hsame off (by omega)
      have h1 := hsame (off + 1) (by omega)
      refine .options hnext ?_
      have hrest := ih hsame
      rw [h0, h1] at hrest
      simpa only [Nat.add_assoc] using hrest
  | @fragment off _ _ _ hpath ih =>
      have hle := hpath.le
      have h0 := hsame off (by omega)
      have h2 := hsame (off + 2) (by omega)
      have h3 := hsame (off + 3) (by omega)
      have hfield : Frame.be16 part (off + 2) = frame.be16 (base + off + 2) := by
        simp only [Frame.be16, h2, h3, Nat.add_assoc]
      have hrest := ih hsame
      rw [h0] at hrest
      rw [hfield]
      exact .fragment (by simpa only [Nat.add_assoc] using hrest)

theorem marlinWalkExt6Loop_fragExt (hset : out.fragExt = true)
    (h : marlinWalkExt6Loop frame maxExt n i off nexthdr out = .ok l3) :
    l3.fragExt = true := by
  have hwalk : ∀ off, (marlinWalkFrag6 frame off out).fragExt = true := by
    intro off
    simp [marlinWalkFrag6, hset]
  induction n generalizing i off nexthdr out with
  | zero => simp [marlinWalkExt6Loop] at h
  | succ n ih =>
      simp only [marlinWalkExt6Loop] at h
      split at h
      · contradiction
      split at h
      · obtain rfl := Except.ok.inj h
        exact hset
      split at h
      · contradiction
      split at h
      · contradiction
      split at h
      · split at h
        · contradiction
        split at h
        · obtain rfl := Except.ok.inj h
          exact hwalk off
        · exact ih (hwalk off) h fun off' => by simp [marlinWalkFrag6, hset]
      · exact ih hset h hwalk

theorem marlinWalkFrag6_flags (hflags : out.flags = 0) :
    (marlinWalkFrag6 frame off out).flags = marlinParseFrag6 (frame.be16 (off + 2)) := by
  simp [marlinWalkFrag6, hflags]

theorem marlinWalkExt6Loop_fragment_ext (hflags : out.flags = 0)
    (hfield : ¬(fragField6 (frame.be16 (off + 2))).Whole)
    (hext : marlinIsExt6 (frame.byte off) = true)
    (h : marlinWalkExt6Loop frame maxExt n i off ipprotoFragment out = .ok l3) :
    l3.fragExt = true := by
  have hany : (marlinParseFrag6 (frame.be16 (off + 2)) &&& marlinCtxFFragAny != 0) = true :=
    bne_iff_ne.mpr (marlinParseFrag6_any hfield)
  have hset : (marlinWalkFrag6 frame off out).fragExt = true := by
    simp only [marlinWalkFrag6, hflags, UInt32.zero_or, hext, hany, Bool.and_true,
      Bool.or_true]
  rcases marlinWalkExt6Loop_fragment h with ⟨-, rfl⟩ | ⟨-, m, hm⟩
  · exact hset
  · exact marlinWalkExt6Loop_fragExt hset hm

/--
A walk that ends without `frag_ext` has passed over atomic Fragment headers only on
its way to the last one, and changed nothing.
-/
theorem marlinWalkExt6Loop_toFragment
    (hpath : Ext6Path frame off nexthdr frags off' ipprotoFragment) (hflags : out.flags = 0)
    (hclear : l3.fragExt = false)
    (h : marlinWalkExt6Loop frame maxExt n i off nexthdr out = .ok l3) :
    ∃ m j, marlinWalkExt6Loop frame maxExt m j off' ipprotoFragment out = .ok l3 := by
  generalize hlast : ipprotoFragment = last at hpath ⊢
  induction hpath generalizing n i with
  | refl => exact ⟨n, i, h⟩
  | options hnext _ ih =>
      obtain ⟨m, hm⟩ := marlinWalkExt6Loop_options hnext h
      exact ih hm hlast
  | @fragment off _ _ _ hpath ih =>
      have hext : marlinIsExt6 (frame.byte off) = true := hpath.isExt6 (by rw [← hlast]; rfl)
      -- a field that is not atomic would have set `frag_ext`, as more headers follow
      have hwhole : (fragField6 (frame.be16 (off + 2))).Whole := by
        by_contra hfield
        have hset := marlinWalkExt6Loop_fragment_ext hflags hfield hext h
        simp [hclear] at hset
      have hsame := marlinWalkFrag6_whole hflags hwhole
      rcases marlinWalkExt6Loop_fragment h with ⟨hlater, -⟩ | ⟨-, m, hm⟩
      · rw [hsame, hflags] at hlater
        exact absurd rfl hlater
      · rw [hsame] at hm
        exact ih hm hlast

theorem marlinWalkExt6Loop_atFragment (hflags : out.flags = 0) (hclear : l3.fragExt = false)
    (hfield : ¬(fragField6 (frame.be16 (off + 2))).Whole)
    (h : marlinWalkExt6Loop frame maxExt n i off ipprotoFragment out = .ok l3) :
    l3.src = out.src ∧ l3.dst = out.dst ∧ l3.proto = frame.byte off ∧
      marlinIsExt6 (frame.byte off) = false ∧
      l3.flags = marlinParseFrag6 (frame.be16 (off + 2)) := by
  have hupper : marlinIsExt6 (frame.byte off) = false := by
    by_contra hext
    have hset := marlinWalkExt6Loop_fragment_ext hflags hfield (by simpa using hext) h
    simp [hclear] at hset
  rcases marlinWalkExt6Loop_fragment h with ⟨-, rfl⟩ | ⟨-, m, hm⟩
  · exact ⟨rfl, rfl, rfl, hupper, marlinWalkFrag6_flags hflags⟩
  · obtain ⟨-, rfl⟩ := marlinWalkExt6Loop_upper hupper hm
    exact ⟨rfl, rfl, rfl, hupper, marlinWalkFrag6_flags hflags⟩

end Walk

/-! ## What the parser makes of a fragment -/

section Parse

variable {frame : Frame} {network : Network} {field : FragField} {off : Nat}

theorem marlinParseL3_fragment {l3 : MarlinL3} (hheads : network.Heads frame field off)
    (hwf : network.WellFormed) (hfield : ¬field.Whole) (hclear : l3.fragExt = false)
    (h : marlinParseL3 frame marlinL3OffEth network.family maxExtHdrs = .ok l3) :
    l3.src = network.src ∧ l3.dst = network.dst ∧ l3.proto = network.proto ∧
      l3.flags &&& marlinCtxFFragAny ≠ 0 ∧
      (network.family = afInet6 → marlinIsExt6 network.proto = false) := by
  cases hheads with
  | v4 hether hihl hproto hsrc hdst hfrag =>
      subst hproto hsrc hdst hfrag
      obtain rfl := marlinParseL3_v4 h
      have hfamily : afInet ≠ afInet6 := by decide
      exact ⟨rfl, rfl, rfl, marlinParseFrag4_any hfield, fun h => absurd h hfamily⟩
  | @v6 src dst first proto part hether hfirst hsrc hdst hpart hproto hfrag =>
      subst hproto hsrc hdst hfrag hfirst
      obtain ⟨frags, hpath⟩ := hwf
      have hsame : ∀ j < part.length, Frame.byte part j = frame.byte (54 + j) := by
        intro j hj
        have hbyte : ((frame.drop 54).take part.length).getD j 0 = Frame.byte part j := by
          rw [hpart]
          rfl
        rw [← hbyte]
        simp [Frame.byte, List.getD_eq_getElem?_getD, hj]
      obtain ⟨m, j, hm⟩ := marlinWalkExt6Loop_toFragment (hpath.shift hsame) rfl hclear
        (marlinParseL3_v6 h)
      obtain ⟨hsrc, hdst, hproto, hupper, hflags⟩ :=
        marlinWalkExt6Loop_atFragment rfl hclear hfield hm
      refine ⟨hsrc, hdst, hproto, ?_, fun _ => hupper⟩
      rw [hflags]
      exact marlinParseFrag6_any hfield

theorem Network.Heads.ethFamily (hheads : network.Heads frame field off) :
    marlinEthFamily frame = some network.family := by
  cases hheads with
  | v4 hether => simp [marlinEthFamily, hether, Network.family]
  | v6 hether =>
      simp [marlinEthFamily, hether, Network.family, show ethPIpv6 ≠ ethPIp by decide]

/-- The marks of an accepted fragment: everything selection may depend on. -/
structure FragmentCtx (network : Network) (mctx : MarlinCtx) : Prop where
  family : mctx.tuple.family = network.family
  proto : mctx.tuple.proto = network.proto
  src : mctx.tuple.src = network.src
  dst : mctx.tuple.dst = network.dst
  flags : mctx.flags &&& marlinCtxFFragAny ≠ 0
  reachable : ¬network.Unreachable

theorem marlinParse_fragment {cfg : MarlinConfig} (hheads : network.Heads frame field off)
    (hwf : network.WellFormed) (hfield : ¬field.Whole) (hicmp : ¬network.IsIcmp)
    (h : frame.Accepted cfg) : FragmentCtx network (frame.parsed cfg) := by
  rw [Frame.Accepted] at h
  rw [Frame.parsed]
  obtain ⟨family, l3, hfamily, hl3, hparse⟩ := marlinParse_ok h
  rw [hheads.ethFamily, Option.some.injEq] at hfamily
  subst hfamily
  rw [hparse] at h ⊢
  obtain ⟨hproto, hclear, hparsed⟩ := marlinParseL4_ok h
  obtain ⟨hsrc, hdst, hl3proto, hflags, hext⟩ :=
    marlinParseL3_fragment hheads hwf hfield hclear hl3
  have hreachable := Network.not_unreachable (hl3proto ▸ hproto) hext
  have hnotIcmp : marlinProtoIsIcmp network.family l3.proto = false := by
    rw [hl3proto]
    exact Network.not_isIcmp hicmp
  generalize (marlinParseL4 frame network.family l3 _).2 = parsed at hparsed ⊢
  cases hparsed with
  | tail =>
      refine ⟨rfl, hl3proto, hsrc, hdst, ?_, hreachable⟩
      simpa [MarlinCtx.withL3] using hflags
  | icmp _ hicmp => simp [hnotIcmp] at hicmp
  | ports =>
      refine ⟨rfl, hl3proto, hsrc, hdst, flags_or_ne ?_ _, hreachable⟩
      simpa [MarlinCtx.withL3] using hflags

end Parse

/-! ## Selection -/

section Select

variable {network : Network} {host : Host} {maps : Maps} {vip : VipMeta} {x : Xdp}

theorem marlinLbProcessPacket_fragment
    (hhash : vip.flags &&& (vipHash5tuple ||| vipHashPorts) ≠ 0)
    (hflags : x.pkt.flags &&& marlinCtxFFragAny ≠ 0) :
    (marlinLbProcessPacket host maps vip x).1 = .dropFragUnsupported := by
  simp [marlinLbProcessPacket, marlinLbCheckFrag, hhash, hflags]

theorem marlinLbSelectBackend_fragment (hflags : x.pkt.flags &&& marlinCtxFFragAny ≠ 0) :
    (marlinLbSelectBackend host maps vip x).1 =
      marlinLbSelectBackendByHash maps x.pkt vip := by
  have hquic : marlinLbSelectBackendQuic host maps vip x = (none, x) := by
    simp [marlinLbSelectBackendQuic, marlinLbQuicDecode, hflags]
  simp only [marlinLbSelectBackend, hquic]
  split <;> rfl

theorem marlinLbSelectBackendByHash_src {pkt pkt' : MarlinCtx}
    (hhash : vip.flags &&& (vipHash5tuple ||| vipHashPorts) = 0)
    (hsrc : pkt.tuple.src = pkt'.tuple.src) :
    marlinLbSelectBackendByHash maps pkt vip = marlinLbSelectBackendByHash maps pkt' vip := by
  rw [UInt32.and_comm, flags_or_and, UInt32.or_eq_zero_iff, UInt32.and_comm vipHash5tuple,
    UInt32.and_comm vipHashPorts] at hhash
  simp only [marlinLbSelectBackendByHash, marlinLbFkey, marlinLbMix, hhash.1, hhash.2, hsrc,
    ne_eq, not_true_eq_false, if_false]

end Select

def BothResolve (maps : Maps) (x y : Xdp) (vip : VipMeta) : Prop :=
  marlinLbSelectVip maps x.pkt = some vip ∧ marlinLbSelectVip maps y.pkt = some vip

/--
Fragments of one datagram, however it is cut: those that are accepted agree on what
selection uses, none is accepted when the transport header cannot be told, and two
that resolve to one VIP are refused alike or go to one backend.
-/
theorem fragments_sameBackend {d : Datagram} {frames : List Frame}
    (hfrags : d.FragmentedInto frames) (hicmp : ¬d.network.IsIcmp) :
    (∀ a ∈ frames, ∀ b ∈ frames, ∀ cfg cfg', a.Accepted cfg → b.Accepted cfg' →
        (a.parsed cfg).tuple.family = (b.parsed cfg').tuple.family ∧
          (a.parsed cfg).tuple.proto = (b.parsed cfg').tuple.proto ∧
          (a.parsed cfg).tuple.src = (b.parsed cfg').tuple.src ∧
          (a.parsed cfg).tuple.dst = (b.parsed cfg').tuple.dst) ∧
      (d.network.Unreachable → ∀ a ∈ frames, ∀ cfg, ¬a.Accepted cfg) ∧
      ∀ a ∈ frames, ∀ b ∈ frames, ∀ cfg cfg', a.Accepted cfg → b.Accepted cfg' →
        ∀ (hostA hostB : Host) (maps : Maps) (vip : VipMeta) (x y : Xdp),
          x.Holds a cfg → y.Holds b cfg' → BothResolve maps x y vip →
            ((marlinLbProcessPacket hostA maps vip x).1 = .dropFragUnsupported ∧
                (marlinLbProcessPacket hostB maps vip y).1 = .dropFragUnsupported) ∨
              (marlinLbSelectBackend hostA maps vip x).1 =
                (marlinLbSelectBackend hostB maps vip y).1 := by
  have hctx : ∀ a ∈ frames, ∀ cfg, a.Accepted cfg →
      FragmentCtx d.network (a.parsed cfg) := by
    intro a ha cfg hok
    obtain ⟨lens, hcut, hlength, hpieces⟩ := hfrags
    obtain ⟨k, hk, rfl⟩ := List.getElem_of_mem ha
    obtain ⟨off, hheads, -⟩ := hpieces k hk
    exact marlinParse_fragment hheads d.wellFormed (hcut.not_whole (hlength ▸ hk)) hicmp hok
  refine ⟨?_, ?_, ?_⟩
  · intro a ha b hb cfg cfg' haok hbok
    have hactx := hctx a ha cfg haok
    have hbctx := hctx b hb cfg' hbok
    exact ⟨hactx.family.trans hbctx.family.symm, hactx.proto.trans hbctx.proto.symm,
      hactx.src.trans hbctx.src.symm, hactx.dst.trans hbctx.dst.symm⟩
  · intro hunreachable a ha cfg haok
    exact (hctx a ha cfg haok).reachable hunreachable
  · intro a ha b hb cfg cfg' haok hbok hostA hostB maps vip x y hx hy _
    have hactx := hctx a ha cfg haok
    have hbctx := hctx b hb cfg' hbok
    obtain ⟨-, verdictA, hx⟩ := hx
    obtain ⟨-, verdictB, hy⟩ := hy
    have hxflags : x.pkt.flags &&& marlinCtxFFragAny ≠ 0 := by
      rw [hx]
      exact hactx.flags
    have hyflags : y.pkt.flags &&& marlinCtxFFragAny ≠ 0 := by
      rw [hy]
      exact hbctx.flags
    have hsrc : x.pkt.tuple.src = y.pkt.tuple.src := by
      rw [hx, hy]
      exact hactx.src.trans hbctx.src.symm
    by_cases hhash : vip.flags &&& (vipHash5tuple ||| vipHashPorts) = 0
    · right
      rw [marlinLbSelectBackend_fragment hxflags, marlinLbSelectBackend_fragment hyflags]
      exact marlinLbSelectBackendByHash_src hhash hsrc
    · exact .inl ⟨marlinLbProcessPacket_fragment hhash hxflags,
        marlinLbProcessPacket_fragment hhash hyflags⟩

/-! ### Datagrams in two fragments -/

namespace SampleDatagram

def payload : List UInt8 := [4, 210, 0, 53, 0, 16, 0, 0, 1, 2, 3, 4, 5, 6, 7, 8]

def datagram (proto : UInt8) : Datagram :=
  { network := .v4 ⟨10, 0, 0, 1⟩ ⟨192, 0, 2, 1⟩ proto
    payload := payload
    wellFormed := trivial
    length_lt := by decide }

def frame (proto : UInt8) (fragOff : Be16) (data : List UInt8) : Frame :=
  List.replicate 12 0 ++ ethPIp.bytes ++ [0x45, 0, 0, 0, 0, 0] ++ fragOff.bytes ++
    [64, proto, 0, 0, 10, 0, 0, 1, 192, 0, 2, 1] ++ data

def first (proto : UInt8) : Frame := frame proto ⟨0x20, 0⟩ (payload.take 8)
def second (proto : UInt8) : Frame := frame proto ⟨0, 1⟩ (payload.drop 8)

theorem heads (proto : UInt8) (fragOff : Be16) (data : List UInt8) :
    (datagram proto).network.Heads (frame proto fragOff data) (fragField4 fragOff) 34 := by
  have hihl : (frame proto fragOff data).byte 14 = 0x45 := rfl
  have hheads := @Network.Heads.v4 (frame proto fragOff data) (fragField4 fragOff) ⟨10, 0, 0, 1⟩
    ⟨192, 0, 2, 1⟩ proto rfl (by rw [hihl]; decide) rfl rfl rfl rfl
  rw [hihl] at hheads
  exact hheads

theorem fragmentedInto (proto : UInt8) :
    (datagram proto).FragmentedInto [first proto, second proto] := by
  have hfields : fragField4 ⟨0x20, 0⟩ = ⟨0, true⟩ ∧ fragField4 ⟨0, 1⟩ = ⟨1, false⟩ := by decide
  refine ⟨[8, 8], ⟨by decide, by decide, rfl, by decide⟩, rfl, ?_⟩
  intro k hk
  match k, hk with
  | 0, _ => exact ⟨34, hfields.1 ▸ heads proto ⟨0x20, 0⟩ (payload.take 8), rfl⟩
  | 1, _ => exact ⟨34, hfields.2 ▸ heads proto ⟨0, 1⟩ (payload.drop 8), rfl⟩

theorem not_isIcmp : ¬(datagram ipprotoUdp).network.IsIcmp ∧
    ¬(datagram ipprotoEsp).network.IsIcmp := by
  rw [Network.IsIcmp, Network.IsIcmp]
  decide

theorem accepted : (first ipprotoUdp).Accepted 0 ∧ (second ipprotoUdp).Accepted 0 := by
  rw [Frame.Accepted, Frame.Accepted]
  decide

def entry : VipMeta := ⟨0, 0, Vector.replicate 16 0⟩

def maps : Maps :=
  { Maps.fresh with
    fwdTable := fun _ => 9
    vipMap := AList.singleton ⟨⟨⟨192, 0, 2, 1⟩, 0, 0, 0⟩, 0, ipprotoUdp, afInet⟩ entry }

def entering (frame : Frame) : Xdp := ⟨frame, frame.parsed 0, Sample.counters, fun _ => none⟩

theorem bothResolve :
    BothResolve maps (entering (first ipprotoUdp)) (entering (second ipprotoUdp)) entry := by
  rw [BothResolve]
  decide

end SampleDatagram

/-- The fragments of a UDP datagram go to one backend; those of an ESP datagram are refused. -/
theorem fragments_sameBackend_udp :
    ((SampleDatagram.first ipprotoUdp).parsed 0).tuple.src =
        ((SampleDatagram.second ipprotoUdp).parsed 0).tuple.src ∧
      (marlinLbSelectBackend Sample.host SampleDatagram.maps SampleDatagram.entry
          (SampleDatagram.entering (SampleDatagram.first ipprotoUdp))).1 =
        (marlinLbSelectBackend Sample.host SampleDatagram.maps SampleDatagram.entry
          (SampleDatagram.entering (SampleDatagram.second ipprotoUdp))).1 ∧
      ¬(SampleDatagram.second ipprotoEsp).Accepted 0 := by
  obtain ⟨hudp, hesp⟩ := SampleDatagram.not_isIcmp
  obtain ⟨hfirst, hsecond⟩ := SampleDatagram.accepted
  obtain ⟨hparsed, -, hchoice⟩ :=
    fragments_sameBackend (SampleDatagram.fragmentedInto ipprotoUdp) hudp
  obtain ⟨-, hrefused, -⟩ := fragments_sameBackend (SampleDatagram.fragmentedInto ipprotoEsp) hesp
  refine ⟨(hparsed _ (by simp) _ (by simp) 0 0 hfirst hsecond).2.2.1, ?_,
    hrefused (Or.inl rfl) _ (by simp) 0⟩
  refine (hchoice _ (by simp) _ (by simp) 0 0 hfirst hsecond Sample.host Sample.host
    SampleDatagram.maps SampleDatagram.entry _ _ (Xdp.holds_parsed ..) (Xdp.holds_parsed ..)
    SampleDatagram.bothResolve).resolve_left fun hdropped => ?_
  exact absurd hdropped.1 (by decide +kernel)

end Marlin
