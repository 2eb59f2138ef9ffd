import Mathlib.Data.Nat.Bitwise
import Marlin.Bpf.Parser

/-!
# What a frame says on the wire

An account of IP packets that does not mention the parser: the header fields at
their offsets, the chain of IPv6 extension headers and the fragment fields on it.
The parser is then compared with it, header by header.
-/

namespace Marlin

/-! ## Packets -/

/-- A fragment field: the offset in units of eight bytes, and "more fragments". -/
structure FragField where
  offset : Nat
  more : Bool
  deriving DecidableEq, Repr

def fragField4 (field : Be16) : FragField :=
  ⟨field.toNat % 8192, field.toNat / 8192 % 2 == 1⟩

def fragField6 (field : Be16) : FragField := ⟨field.toNat / 8, field.toNat % 2 == 1⟩

/-- A whole packet, or one that an atomic Fragment header calls whole. -/
def FragField.Whole (field : FragField) : Prop := field.offset = 0 ∧ field.more = false

/--
Extension headers from `off`, announced as `nexthdr`, up to what is announced as
`nexthdr'` at `off'`, with the fragment fields met on the way.
-/
inductive Ext6Path (frame : Frame) :
    Nat → UInt8 → List Be16 → Nat → UInt8 → Prop
  | refl (off : Nat) (nexthdr : UInt8) : Ext6Path frame off nexthdr [] off nexthdr
  | options {off off' : Nat} {nexthdr nexthdr' : UInt8} {frags : List Be16}
      (hnext : nexthdr = ipprotoHopopts ∨ nexthdr = ipprotoRouting ∨
        nexthdr = ipprotoDstopts)
      (hpath : Ext6Path frame (off + ((frame.byte (off + 1)).toNat + 1) * 8)
        (frame.byte off) frags off' nexthdr') :
      Ext6Path frame off nexthdr frags off' nexthdr'
  | fragment {off off' : Nat} {nexthdr' : UInt8} {frags : List Be16}
      (hpath : Ext6Path frame (off + 8) (frame.byte off) frags off' nexthdr') :
      Ext6Path frame off ipprotoFragment (frame.be16 (off + 2) :: frags) off' nexthdr'

/--
The packet at `l3Off`: family, source, destination, upper-layer protocol, where its
header starts, and the fragment fields in front of it.
-/
inductive IpPacket (frame : Frame) (l3Off : Nat) :
    UInt8 → Addr → Addr → UInt8 → Nat → List FragField → Prop
  | v4 (hihl : 5 ≤ (frame.byte l3Off).toNat % 16) :
      IpPacket frame l3Off afInet ⟨frame.be32 (l3Off + 12), 0, 0, 0⟩
        ⟨frame.be32 (l3Off + 16), 0, 0, 0⟩ (frame.byte (l3Off + 9))
        (l3Off + (frame.byte l3Off).toNat % 16 * 4)
        [fragField4 (frame.be16 (l3Off + 6))]
  | v6 {frags : List Be16} {off : Nat} {proto : UInt8}
      (hpath : Ext6Path frame (l3Off + 40) (frame.byte (l3Off + 6)) frags off proto)
      (hupper : marlinIsExt6 proto = false) :
      IpPacket frame l3Off afInet6 (frame.addr (l3Off + 8)) (frame.addr (l3Off + 24)) proto
        off (frags.map fragField6)

/-! ## Fragment fields -/

private theorem and_ipMf (n : Nat) : n &&& ipMf = 0 ↔ n / 8192 % 2 = 0 := by
  rw [show ipMf = 2 ^ 13 from rfl, Nat.and_two_pow, Nat.testBit_eq_decide_div_mod_eq]
  simp

private theorem and_ip6Offset {n : Nat} (hn : n < 65536) :
    n &&& ip6Offset = 0 ↔ n / 8 = 0 := by
  have hhigh : (n &&& ip6Offset) >>> 3 = n / 8 := by
    rw [Nat.shiftRight_and_distrib, show ip6Offset >>> 3 = 2 ^ 13 - 1 from rfl,
      Nat.and_two_pow_sub_one_eq_mod, Nat.shiftRight_eq_div_pow]
    omega
  constructor
  · intro h
    rw [← hhigh, h, Nat.zero_shiftRight]
  · intro h
    have hsmall : ∀ m < 8, m &&& ip6Offset = 0 := by decide
    exact hsmall n (by omega)

theorem marlinParseFrag4_eq (field : Be16) :
    marlinParseFrag4 field =
      if (fragField4 field).offset ≠ 0 then marlinCtxFFrag
      else if (fragField4 field).more then marlinCtxFFragFirst else 0 := by
  have hoffset : field.masked ipOffset = true ↔ (fragField4 field).offset ≠ 0 := by
    simp only [Be16.masked, fragField4, bne_iff_ne, ne_eq,
      show ipOffset = 2 ^ 13 - 1 from rfl, Nat.and_two_pow_sub_one_eq_mod]
  have hmore : field.masked ipMf = true ↔ (fragField4 field).more = true := by
    simp only [Be16.masked, fragField4, bne_iff_ne, ne_eq, and_ipMf, beq_iff_eq]
    omega
  simp only [marlinParseFrag4, hoffset, hmore]

theorem marlinParseFrag6_eq (field : Be16) :
    marlinParseFrag6 field =
      if (fragField6 field).offset ≠ 0 then marlinCtxFFrag
      else if (fragField6 field).more then marlinCtxFFragFirst else 0 := by
  have hoffset : field.masked ip6Offset = true ↔ (fragField6 field).offset ≠ 0 := by
    simp only [Be16.masked, fragField6, bne_iff_ne, ne_eq, and_ip6Offset field.toNat_lt]
  have hmore : field.masked ip6Mf = true ↔ (fragField6 field).more = true := by
    simp only [Be16.masked, fragField6, bne_iff_ne, ne_eq, show ip6Mf = 2 ^ 1 - 1 from rfl,
      Nat.and_two_pow_sub_one_eq_mod, beq_iff_eq]
    omega
  simp only [marlinParseFrag6, hoffset, hmore]

theorem marlinParseFrag6_whole {field : Be16} (h : (fragField6 field).Whole) :
    marlinParseFrag6 field = 0 := by
  rw [marlinParseFrag6_eq, h.1, h.2]
  rfl

theorem marlinParseFrag6_head {field : Be16} (h : (fragField6 field).offset = 0) :
    marlinParseFrag6 field = 0 ∨ marlinParseFrag6 field = marlinCtxFFragFirst := by
  rw [marlinParseFrag6_eq, h]
  cases (fragField6 field).more
  · exact .inl rfl
  · exact .inr rfl

private theorem fragFlags_any {field : FragField} (h : ¬field.Whole) :
    (if field.offset ≠ 0 then marlinCtxFFrag
      else if field.more then marlinCtxFFragFirst else 0) &&& marlinCtxFFragAny ≠ 0 := by
  split
  · decide
  · rename_i hoffset
    cases hmore : field.more with
    | true => decide
    | false => exact absurd ⟨not_not.mp hoffset, hmore⟩ h

theorem marlinParseFrag4_any {field : Be16} (h : ¬(fragField4 field).Whole) :
    marlinParseFrag4 field &&& marlinCtxFFragAny ≠ 0 := by
  rw [marlinParseFrag4_eq]
  exact fragFlags_any h

theorem marlinParseFrag6_any {field : Be16} (h : ¬(fragField6 field).Whole) :
    marlinParseFrag6 field &&& marlinCtxFFragAny ≠ 0 := by
  rw [marlinParseFrag6_eq]
  exact fragFlags_any h

/-! ## One turn of the walk -/

section Walk

variable {frame : Frame} {maxExt n i off : Nat} {nexthdr : UInt8} {out l3 : MarlinL3}

theorem marlinWalkExt6Loop_upper (hext : marlinIsExt6 nexthdr = false)
    (h : marlinWalkExt6Loop frame maxExt n i off nexthdr out = .ok l3) :
    marlinProtoUnsupported nexthdr = false ∧
      l3 = { out with proto := nexthdr, l4Off := off } := by
  cases n with
  | zero => simp [marlinWalkExt6Loop] at h
  | succ n =>
      cases hproto : marlinProtoUnsupported nexthdr with
      | true => simp [marlinWalkExt6Loop, hproto] at h
      | false =>
          simp only [marlinWalkExt6Loop, hproto, hext, Bool.false_eq_true, if_false,
            Bool.not_false, if_true, Except.ok.injEq] at h
          exact ⟨rfl, h.symm⟩

theorem marlinWalkExt6Loop_options
    (hnext : nexthdr = ipprotoHopopts ∨ nexthdr = ipprotoRouting ∨
      nexthdr = ipprotoDstopts)
    (h : marlinWalkExt6Loop frame maxExt n i off nexthdr out = .ok l3) :
    ∃ m, marlinWalkExt6Loop frame maxExt m (i + 1)
      (off + ((frame.byte (off + 1)).toNat + 1) * 8) (frame.byte off) out = .ok l3 := by
  cases n with
  | zero => simp [marlinWalkExt6Loop] at h
  | succ n =>
      rw [marlinWalkExt6Loop_options_eq hnext] at h
      split at h
      · contradiction
      · split at h
        · contradiction
        · exact ⟨n, h⟩

theorem marlinWalkExt6Loop_fragment
    (h : marlinWalkExt6Loop frame maxExt n i off ipprotoFragment out = .ok l3) :
    (((marlinWalkFrag6 frame off out).flags &&& marlinCtxFFrag ≠ 0) ∧
        l3 = { marlinWalkFrag6 frame off out with
          proto := frame.byte off, l4Off := off + 8 }) ∨
      (((marlinWalkFrag6 frame off out).flags &&& marlinCtxFFrag = 0) ∧
        ∃ m, marlinWalkExt6Loop frame maxExt m (i + 1) (off + 8) (frame.byte off)
          (marlinWalkFrag6 frame off out) = .ok l3) := by
  cases n with
  | zero => simp [marlinWalkExt6Loop] at h
  | succ n =>
      rw [marlinWalkExt6Loop_fragment_eq] at h
      split at h
      · contradiction
      · split at h
        · contradiction
        · split at h
          · contradiction
          · split at h
            · rename_i hlater
              exact .inl ⟨by simpa using hlater, (Except.ok.inj h).symm⟩
            · rename_i hlater
              exact .inr ⟨by simpa using hlater, n, h⟩

/-! ## A whole walk -/

@[simp] theorem marlinWalkFrag6_src (frame : Frame) (off : Nat) (out : MarlinL3) :
    (marlinWalkFrag6 frame off out).src = out.src := rfl

@[simp] theorem marlinWalkFrag6_dst (frame : Frame) (off : Nat) (out : MarlinL3) :
    (marlinWalkFrag6 frame off out).dst = out.dst := rfl

theorem marlinWalkFrag6_whole (hflags : out.flags = 0)
    (hwhole : (fragField6 (frame.be16 (off + 2))).Whole) :
    marlinWalkFrag6 frame off out = out := by
  obtain ⟨src, dst, l4Off, flags, proto, fragExt⟩ := out
  obtain rfl : flags = 0 := hflags
  simp [marlinWalkFrag6, marlinParseFrag6_whole hwhole]

theorem marlinWalkFrag6_head (hflags : out.flags &&& marlinCtxFFrag = 0)
    (hhead : (fragField6 (frame.be16 (off + 2))).offset = 0) :
    (marlinWalkFrag6 frame off out).flags &&& marlinCtxFFrag = 0 := by
  have hfirst : marlinCtxFFragFirst &&& marlinCtxFFrag = 0 := by decide
  simp only [marlinWalkFrag6]
  rcases marlinParseFrag6_head hhead with h | h
  · rw [h, UInt32.or_zero, hflags]
  · rw [h, flags_or_and, hflags, hfirst, UInt32.or_zero]

variable {frags : List Be16} {off' : Nat} {proto : UInt8}

theorem Ext6Path.le (hpath : Ext6Path frame off nexthdr frags off' proto) :
    off ≤ off' := by
  induction hpath with
  | refl => exact Nat.le_refl _
  | options _ _ ih => omega
  | fragment _ ih => omega

theorem marlinWalkExt6Loop_whole (hpath : Ext6Path frame off nexthdr frags off' proto)
    (hupper : marlinIsExt6 proto = false) (hwhole : ∀ f ∈ frags, (fragField6 f).Whole)
    (hflags : out.flags = 0)
    (h : marlinWalkExt6Loop frame maxExt n i off nexthdr out = .ok l3) :
    l3 = { out with proto := proto, l4Off := off' } := by
  induction hpath generalizing n i with
  | refl off nexthdr => exact (marlinWalkExt6Loop_upper hupper h).2
  | options hnext _ ih =>
      obtain ⟨m, hm⟩ := marlinWalkExt6Loop_options hnext h
      exact ih hupper hwhole hm
  | fragment _ ih =>
      have hsame := marlinWalkFrag6_whole hflags (hwhole _ List.mem_cons_self)
      rcases marlinWalkExt6Loop_fragment h with ⟨hlater, -⟩ | ⟨-, m, hm⟩
      · rw [hsame, hflags] at hlater
        exact absurd rfl hlater
      · rw [hsame] at hm
        exact ih hupper (fun f hf => hwhole f (by simp [hf])) hm

theorem marlinWalkExt6Loop_head (hpath : Ext6Path frame off nexthdr frags off' proto)
    (hupper : marlinIsExt6 proto = false)
    (hhead : ∀ f ∈ frags, (fragField6 f).offset = 0)
    (hflags : out.flags &&& marlinCtxFFrag = 0)
    (h : marlinWalkExt6Loop frame maxExt n i off nexthdr out = .ok l3) :
    l3.src = out.src ∧ l3.dst = out.dst ∧ l3.proto = proto ∧ l3.l4Off = off' := by
  induction hpath generalizing n i out with
  | refl off nexthdr =>
      obtain ⟨-, rfl⟩ := marlinWalkExt6Loop_upper hupper h
      exact ⟨rfl, rfl, rfl, rfl⟩
  | options hnext _ ih =>
      obtain ⟨m, hm⟩ := marlinWalkExt6Loop_options hnext h
      exact ih hupper hhead hflags hm
  | fragment _ ih =>
      have hstill := marlinWalkFrag6_head hflags (hhead _ List.mem_cons_self)
      rcases marlinWalkExt6Loop_fragment h with ⟨hlater, -⟩ | ⟨-, m, hm⟩
      · exact absurd hstill hlater
      · have hrest := ih hupper (fun f hf => hhead f (by simp [hf])) hstill hm
        simpa using hrest

end Walk

/-! ## Network headers -/

section Network

variable {frame : Frame} {l3Off maxExt l4Off : Nat} {family proto : UInt8}
  {src dst : Addr} {frags : List FragField} {l3 : MarlinL3}

theorem marlinParseL3_v4 (h : marlinParseL3 frame l3Off afInet maxExt = .ok l3) :
    l3 =
      { src := ⟨frame.be32 (l3Off + 12), 0, 0, 0⟩
        dst := ⟨frame.be32 (l3Off + 16), 0, 0, 0⟩
        l4Off := l3Off + (frame.byte l3Off).toNat % 16 * 4
        flags := marlinParseFrag4 (frame.be16 (l3Off + 6))
        proto := frame.byte (l3Off + 9)
        fragExt := false } := by
  simp only [marlinParseL3, beq_self_eq_true, if_true] at h
  repeat' split at h
  all_goals first | contradiction | exact (Except.ok.inj h).symm

theorem marlinParseL3_v6 (h : marlinParseL3 frame l3Off afInet6 maxExt = .ok l3) :
    marlinWalkExt6 frame (l3Off + 40) (frame.byte (l3Off + 6)) maxExt
      { (0 : MarlinL3) with
        src := frame.addr (l3Off + 8)
        dst := frame.addr (l3Off + 24) } = .ok l3 := by
  have hfamily : (afInet6 == afInet) = false := rfl
  simp only [marlinParseL3, hfamily, Bool.false_eq_true, if_false] at h
  split at h
  · contradiction
  · exact h

theorem marlinWalkExt6Loop_ne_error_ok (frame : Frame) (maxExt n i off : Nat)
    (nexthdr : UInt8) (out : MarlinL3) :
    marlinWalkExt6Loop frame maxExt n i off nexthdr out ≠ .error .ok := by
  induction n generalizing i off nexthdr out with
  | zero => simp [marlinWalkExt6Loop]
  | succ n ih =>
      simp only [marlinWalkExt6Loop]
      repeat' split
      all_goals first | exact ih _ _ _ _ | simp

theorem marlinParseL3_ne_error_ok (frame : Frame) (l3Off : Nat) (family : UInt8)
    (maxExt : Nat) : marlinParseL3 frame l3Off family maxExt ≠ .error .ok := by
  simp only [marlinParseL3]
  repeat' split
  all_goals first | exact marlinWalkExt6Loop_ne_error_ok _ _ _ _ _ _ _ | simp

theorem marlinParseL3_whole
    (hpacket : IpPacket frame l3Off family src dst proto l4Off frags)
    (hwhole : ∀ f ∈ frags, f.Whole)
    (h : marlinParseL3 frame l3Off family maxExt = .ok l3) :
    l3 = ⟨src, dst, l4Off, 0, proto, false⟩ := by
  cases hpacket with
  | v4 hihl =>
      obtain rfl := marlinParseL3_v4 h
      have hfield := hwhole _ (List.mem_singleton_self _)
      simp [marlinParseFrag4_eq, hfield.1, hfield.2]
  | v6 hpath hupper =>
      exact marlinWalkExt6Loop_whole hpath hupper
        (fun f hf => hwhole _ (List.mem_map_of_mem hf)) rfl (marlinParseL3_v6 h)

theorem marlinParseL3_head
    (hpacket : IpPacket frame l3Off family src dst proto l4Off frags)
    (hhead : ∀ f ∈ frags, f.offset = 0)
    (h : marlinParseL3 frame l3Off family maxExt = .ok l3) :
    l3.src = src ∧ l3.dst = dst ∧ l3.proto = proto ∧ l3.l4Off = l4Off := by
  cases hpacket with
  | v4 hihl =>
      obtain rfl := marlinParseL3_v4 h
      exact ⟨rfl, rfl, rfl, rfl⟩
  | v6 hpath hupper =>
      have hflags : (0 : UInt32) &&& marlinCtxFFrag = 0 := by decide
      exact marlinWalkExt6Loop_head hpath hupper
        (fun f hf => hhead _ (List.mem_map_of_mem hf)) hflags (marlinParseL3_v6 h)

/-! ### Flags -/

section Flags

variable {mask : UInt32} (hmask : marlinCtxFFragAny &&& mask = 0)

include hmask

theorem fragFlags_and (field : FragField) :
    (if field.offset ≠ 0 then marlinCtxFFrag
      else if field.more then marlinCtxFFragFirst else 0) &&& mask = 0 := by
  rw [marlinCtxFFragAny, flags_or_and, UInt32.or_eq_zero_iff] at hmask
  split
  · exact hmask.1
  · split
    · exact hmask.2
    · exact UInt32.zero_and

theorem marlinWalkFrag6_and {out : MarlinL3} (hout : out.flags &&& mask = 0) (off : Nat) :
    (marlinWalkFrag6 frame off out).flags &&& mask = 0 := by
  simp only [marlinWalkFrag6]
  rw [flags_or_and, hout, marlinParseFrag6_eq, fragFlags_and hmask, UInt32.or_zero]

theorem marlinWalkExt6Loop_and {n i off : Nat} {nexthdr : UInt8} {out : MarlinL3}
    (hout : out.flags &&& mask = 0)
    (h : marlinWalkExt6Loop frame maxExt n i off nexthdr out = .ok l3) :
    l3.flags &&& mask = 0 := by
  induction n generalizing i off nexthdr out with
  | zero => simp [marlinWalkExt6Loop] at h
  | succ n ih =>
      have hwalk : (marlinWalkFrag6 frame off out).flags &&& mask = 0 :=
        marlinWalkFrag6_and hmask hout off
      simp only [marlinWalkExt6Loop] at h
      split at h
      · contradiction
      split at h
      · obtain rfl := Except.ok.inj h
        exact hout
      split at h
      · contradiction
      split at h
      · contradiction
      split at h
      · split at h
        · contradiction
        split at h
        · obtain rfl := Except.ok.inj h
          exact hwalk
        · exact ih hwalk h
      · exact ih hout h

theorem marlinParseL3_and (h : marlinParseL3 frame l3Off family maxExt = .ok l3) :
    l3.flags &&& mask = 0 := by
  unfold marlinParseL3 at h
  split at h
  · repeat' split at h
    all_goals first | contradiction | (obtain rfl := Except.ok.inj h)
    rw [marlinParseFrag4_eq]
    exact fragFlags_and hmask _
  · split at h
    · contradiction
    · exact marlinWalkExt6Loop_and hmask UInt32.zero_and h

end Flags

end Network

/-! ## Frames -/

section Frames

variable {frame : Frame} {family : UInt8} {l3 : MarlinL3} {mctx : MarlinCtx}

theorem marlinParse_ok (h : (marlinParse frame mctx).1 = .ok) :
    ∃ family l3, marlinEthFamily frame = some family ∧
      marlinParseL3 frame marlinL3OffEth family maxExtHdrs = .ok l3 ∧
      marlinParse frame mctx =
        marlinParseL4 frame family l3
          ({ mctx with pktLen := frame.length % 65536 }.withL3 family l3) := by
  simp only [marlinParse] at h ⊢
  split at h
  · contradiction
  · rename_i hlen
    rw [if_neg hlen]
    cases hfamily : marlinEthFamily frame with
    | none => simp [hfamily] at h
    | some family =>
        cases hl3 : marlinParseL3 frame marlinL3OffEth family maxExtHdrs with
        | error rc =>
            simp only [hfamily, hl3] at h
            subst h
            exact absurd hl3 (marlinParseL3_ne_error_ok frame _ family _)
        | ok l3 => exact ⟨family, l3, rfl, hl3, by simp only [hl3]⟩

theorem marlinParseQuic_cases (frame : Frame) (l4Off : Nat) (mctx : MarlinCtx) :
    ∃ quic len, (quic = 0 ∨ quic = marlinCtxFQuic) ∧
      marlinParseQuic frame l4Off mctx = (quic, { mctx with udpPayloadLen := len }) := by
  simp only [marlinParseQuic]
  repeat' split
  all_goals first
    | exact ⟨0, _, .inl rfl, rfl⟩
    | exact ⟨marlinCtxFQuic, _, .inr rfl, rfl⟩

theorem marlinParsePorts_ok {l4Off : Nat} {proto : UInt8} {ports : Be16 × Be16}
    (h : marlinParsePorts frame l4Off proto = .ok ports) :
    marlinProtoHasPorts proto = true ∧
      ports = (frame.be16 l4Off, frame.be16 (l4Off + 2)) := by
  simp only [marlinParsePorts] at h
  split at h
  · contradiction
  · split at h
    · contradiction
    · rename_i hports
      split at h
      · contradiction
      · exact ⟨by simpa using hports, (Except.ok.inj h).symm⟩

theorem marlinParsePorts_ne_error_ok (frame : Frame) (l4Off : Nat) (proto : UInt8) :
    marlinParsePorts frame l4Off proto ≠ .error .ok := by
  simp only [marlinParsePorts]
  repeat' split
  all_goals simp

def MarlinCtx.withPorts (mctx : MarlinCtx) (frame : Frame) (l4Off : Nat) (quic : UInt32)
    (len : Nat) : MarlinCtx :=
  { mctx with
    tuple := { mctx.tuple with
      sport := frame.be16 l4Off
      dport := frame.be16 (l4Off + 2) }
    flags := mctx.flags ||| quic
    udpPayloadLen := len }

/-- What `marlin_parse` accepts, once the network header is parsed, and with what. -/
inductive ParsedL4 (frame : Frame) (family : UInt8) (l3 : MarlinL3) (mctx : MarlinCtx) :
    MarlinCtx → Prop
  | tail (hlater : mctx.flags &&& marlinCtxFFrag ≠ 0)
      (hicmp : marlinProtoIsIcmp family l3.proto = false) : ParsedL4 frame family l3 mctx mctx
  | icmp {mctx' : MarlinCtx} (hlater : mctx.flags &&& marlinCtxFFrag = 0)
      (hicmp : marlinProtoIsIcmp family l3.proto = true)
      (hparse : marlinParseIcmp frame l3.l4Off family mctx = (.ok, mctx')) :
      ParsedL4 frame family l3 mctx mctx'
  | ports {quic : UInt32} {len : Nat} (hlater : mctx.flags &&& marlinCtxFFrag = 0)
      (hicmp : marlinProtoIsIcmp family l3.proto = false)
      (hports : marlinProtoHasPorts l3.proto = true)
      (hquic : quic = 0 ∨ quic = marlinCtxFQuic) :
      ParsedL4 frame family l3 mctx (mctx.withPorts frame l3.l4Off quic len)

theorem marlinParseL4_ok (h : (marlinParseL4 frame family l3 mctx).1 = .ok) :
    marlinProtoUnsupported l3.proto = false ∧ l3.fragExt = false ∧
      ParsedL4 frame family l3 mctx (marlinParseL4 frame family l3 mctx).2 := by
  simp only [marlinParseL4] at h ⊢
  split at h
  · contradiction
  rename_i hproto
  split at h
  · contradiction
  rename_i hext
  rw [if_neg hproto, if_neg hext]
  refine ⟨by simpa using hproto, by simpa using hext, ?_⟩
  split at h
  · rename_i hlater
    rw [if_pos hlater]
    refine .tail (by simpa using hlater) ?_
    cases hicmp : marlinProtoIsIcmp family l3.proto with
    | true => simp [hicmp] at h
    | false => rfl
  rename_i hlater
  rw [if_neg hlater]
  have hlater' : mctx.flags &&& marlinCtxFFrag = 0 := by simpa using hlater
  split at h
  · rename_i hicmp
    rw [if_pos hicmp]
    exact .icmp hlater' hicmp (Prod.ext h rfl)
  rename_i hicmp
  rw [if_neg hicmp]
  cases hports : marlinParsePorts frame l3.l4Off l3.proto with
  | error rc =>
      simp only [hports] at h
      subst h
      exact absurd hports (marlinParsePorts_ne_error_ok frame _ _)
  | ok ports =>
      obtain ⟨hhas, rfl⟩ := marlinParsePorts_ok hports
      have hicmp' : marlinProtoIsIcmp family l3.proto = false := by simpa using hicmp
      simp only
      split
      · obtain ⟨quic, len, hquic, hparse⟩ := marlinParseQuic_cases frame l3.l4Off
          { mctx with tuple := { mctx.tuple with
              sport := frame.be16 l3.l4Off
              dport := frame.be16 (l3.l4Off + 2) } }
        rw [hparse]
        exact .ports hlater' hicmp' hhas hquic
      · have hplain : ParsedL4 frame family l3 mctx
            (mctx.withPorts frame l3.l4Off 0 mctx.udpPayloadLen) :=
          .ports hlater' hicmp' hhas (.inl rfl)
        simpa [MarlinCtx.withPorts] using hplain

def MarlinCtx.quoting (mctx : MarlinCtx) (frame : Frame) (emb : MarlinL3) : MarlinCtx :=
  { mctx with
    tuple := { mctx.tuple with
      dst := emb.src
      src := emb.dst
      dport := frame.be16 emb.l4Off
      sport := frame.be16 (emb.l4Off + 2)
      proto := emb.proto }
    flags := mctx.flags ||| marlinCtxFIcmp }

theorem marlinParseIcmp_ok {l4Off : Nat} {mctx' : MarlinCtx}
    (h : marlinParseIcmp frame l4Off family mctx = (.ok, mctx')) :
    ∃ emb, marlinParseL3 frame (l4Off + 8) family marlinIcmpEmbExtHdrs = .ok emb ∧
      mctx' = mctx.quoting frame emb := by
  simp only [marlinParseIcmp] at h
  split at h
  · cases h
  split at h
  · split at h <;> cases h
  split at h
  · cases h
  split at h
  · cases h
  rename_i emb hemb
  split at h
  · cases h
  split at h
  · cases h
  rename_i sport dport hports
  obtain ⟨-, heq⟩ := marlinParsePorts_ok hports
  obtain ⟨rfl, rfl⟩ := Prod.mk.inj heq
  exact ⟨emb, hemb, (Prod.mk.inj h).2.symm⟩

end Frames

end Marlin
