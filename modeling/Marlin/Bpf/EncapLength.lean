import Marlin.Bpf.Tunnel

/-!
# Lengths of the outer headers

Each encapsulation unit computes three lengths in 16 bits: the outer IPv4 total
length, the outer UDP length and the new `pkt_len`.  Only `max_frame` bounds them,
and `max_frame = 0` bounds nothing.
-/

namespace Marlin

abbrev EncapResult := MarlinRet × Frame × MarlinCtx

/-! ## What the lengths should be -/

def outerUdpLen (out : Frame) : Nat := (Frame.be16 (out.drop ethHlen) 24).toNat

def LengthsTrue (frame : Frame) (overhead : Nat) (r : EncapResult) : Prop :=
  r.1 = .ok →
    ipv4TotLen (r.2.1.drop ethHlen) = overhead + (frame.length - ethHlen) ∧
      r.2.2.pktLen = frame.length + overhead

def UdpLengthTrue (frame : Frame) (overhead : Nat) (r : EncapResult) : Prop :=
  r.1 = .ok → outerUdpLen r.2.1 = overhead - 20 + (frame.length - ethHlen)

/-- Something keeps the longest of the lengths below `2 ^ 16`. -/
def LengthsGuarded (host : Host) (frame : Frame) (mctx : MarlinCtx) (overhead : Nat) : Prop :=
  mctx.cfg.maxFrame ≠ 0 ∨ frame.length + overhead < 65536 ∨
    host.adjustHeadFails overhead = true

/-! ## What the units compute -/

section Units

variable {host : Host} {frame out : Frame} {mctx mctx' : MarlinCtx} {overhead : Nat}
  {r : EncapResult}

theorem marlinEncapValidate_unlimited (hlong : ethHlen ≤ mctx.pktLen)
    (hmax : mctx.cfg.maxFrame = 0) : marlinEncapValidate mctx overhead = .ok := by
  unfold marlinEncapValidate marlinFrameFits
  rw [if_neg (Nat.not_lt.mpr hlong), if_pos hmax]

theorem Host.adjustHead_isSome (host : Host) (count : Nat) (frame : Frame)
    (h : host.adjustHeadFails count = false) :
    ∃ data, host.adjustHead count frame = some data := by
  unfold Host.adjustHead
  rw [h]
  exact ⟨_, rfl⟩

/-- When a unit emits, and with which lengths. -/
structure Encapsulates (host : Host) (frame : Frame) (mctx : MarlinCtx) (overhead : Nat)
    (r : EncapResult) : Prop where
  rc : r.1 = .ok ↔
    marlinEncapValidate mctx overhead = .ok ∧ host.adjustHeadFails overhead = false
  totLen : r.1 = .ok →
    ipv4TotLen (r.2.1.drop ethHlen) = (overhead + (mctx.pktLen - ethHlen)) % 65536
  pktLen : r.1 = .ok →
    r.2.2.pktLen = (ethHlen + overhead + (mctx.pktLen - ethHlen)) % 65536

theorem Encapsulates.lengthsTrue_iff (h : Encapsulates host frame mctx overhead r)
    (hlen : mctx.pktLen = frame.length) (hmax : mctx.cfg.maxFrame < 65536)
    (hshort : ethHlen + overhead < 65536) :
    LengthsTrue frame overhead r ↔ LengthsGuarded host frame mctx overhead := by
  constructor
  · intro htrue
    by_contra hguard
    unfold LengthsGuarded at hguard
    simp only [not_or, not_not, Nat.not_lt, Bool.not_eq_true] at hguard
    obtain ⟨hzero, hlong, hadjust⟩ := hguard
    have hmin : ethHlen ≤ mctx.pktLen := by omega
    have hrc := h.rc.mpr ⟨marlinEncapValidate_unlimited hmin hzero, hadjust⟩
    have hpkt := (htrue hrc).2
    have hwrap := h.pktLen hrc
    have hlt : (ethHlen + overhead + (mctx.pktLen - ethHlen)) % 65536 < 65536 :=
      Nat.mod_lt _ (by decide)
    omega
  · intro hguard hrc
    obtain ⟨hvalid, hadjust⟩ := h.rc.mp hrc
    obtain ⟨hmin, hfits⟩ := marlinEncapValidate_ok hvalid
    have hsum : frame.length + overhead < 65536 := by
      rcases hguard with hlimit | hbound | hfails
      · rcases hfits with hzero | hle
        · exact absurd hzero hlimit
        · omega
      · exact hbound
      · rw [hadjust] at hfails
        contradiction
    rw [h.totLen hrc, h.pktLen hrc, Nat.mod_eq_of_lt (by omega), Nat.mod_eq_of_lt (by omega)]
    omega

theorem grown_rc (write : Frame → Frame) (mctx' : MarlinCtx) {room : Nat}
    (hroom : room ≤ overhead + frame.length) :
    (match host.adjustHead overhead frame with
      | none => (MarlinRet.dropAdjustHead, frame, mctx)
      | some data =>
          if room > data.length then (.dropAdjustHead, data, mctx)
          else (.ok, write data, mctx')).1 = .ok ↔ host.adjustHeadFails overhead = false := by
  cases hadjust : host.adjustHeadFails overhead with
  | true =>
      have hnone : host.adjustHead overhead frame = none := by
        unfold Host.adjustHead
        rw [hadjust]
        rfl
      rw [hnone]
      simp
  | false =>
      obtain ⟨data, hdata⟩ := host.adjustHead_isSome overhead frame hadjust
      have hlength := (host.adjustHead_some hdata).1
      rw [hdata]
      dsimp only
      rw [if_neg (by omega)]
      simp

theorem guarded_rc {rest : EncapResult}
    (hrest : ethHlen ≤ mctx.pktLen →
      (rest.1 = .ok ↔ host.adjustHeadFails overhead = false)) :
    (if marlinEncapValidate mctx overhead ≠ .ok then
        (marlinEncapValidate mctx overhead, frame, mctx) else rest).1 = .ok ↔
      marlinEncapValidate mctx overhead = .ok ∧ host.adjustHeadFails overhead = false := by
  by_cases hvalid : marlinEncapValidate mctx overhead = .ok
  · rw [if_neg (not_not.mpr hvalid), and_iff_right hvalid]
    exact hrest (marlinEncapValidate_ok hvalid).1
  · rw [if_pos hvalid]
    exact iff_of_false hvalid (fun h => hvalid h.1)

theorem Announces.totLen {protocol : UInt8} {innerLen : Nat} {body : List UInt8}
    (h : Announces out ((marlinBuildOuterIpv4 mctx protocol overhead innerLen).bytes ++ body)) :
    ipv4TotLen (out.drop ethHlen) = (overhead + innerLen) % 65536 := by
  have hdrop : out.drop ethHlen =
      (marlinBuildOuterIpv4 mctx protocol overhead innerLen).bytes ++ body := h.drop.1
  have hfield : ipv4TotLen ((marlinBuildOuterIpv4 mctx protocol overhead innerLen).bytes ++ body) =
      (Be16.ofNat (overhead + innerLen)).toNat := rfl
  rw [hdrop, hfield, Be16.toNat_ofNat]

theorem Announces.udpLen {protocol : UInt8} {innerLen dportDefault len : Nat} {sport : Be16}
    {data : List UInt8}
    (h : Announces out ((marlinBuildOuterIpv4 mctx protocol overhead innerLen).bytes ++
      ((marlinBuildOuterUdp mctx sport dportDefault len).bytes ++ data))) :
    outerUdpLen out = len % 65536 := by
  have hdrop : out.drop ethHlen = (marlinBuildOuterIpv4 mctx protocol overhead innerLen).bytes ++
      ((marlinBuildOuterUdp mctx sport dportDefault len).bytes ++ data) := h.drop.1
  have hfield : Frame.be16 ((marlinBuildOuterIpv4 mctx protocol overhead innerLen).bytes ++
      ((marlinBuildOuterUdp mctx sport dportDefault len).bytes ++ data)) 24 = Be16.ofNat len := rfl
  rw [outerUdpLen, hdrop, hfield, Be16.toNat_ofNat]

theorem Encapsulates.of_emitted
    (hrc : r.1 = .ok ↔
      marlinEncapValidate mctx overhead = .ok ∧ host.adjustHeadFails overhead = false)
    (hemitted : r.1 = .ok → r.2.2 = mctx.encapsulated overhead (mctx.pktLen - ethHlen) ∧
      ∃ protocol body, Announces r.2.1
        ((marlinBuildOuterIpv4 mctx protocol overhead (mctx.pktLen - ethHlen)).bytes ++ body)) :
    Encapsulates host frame mctx overhead r := by
  constructor
  · exact hrc
  · intro hok
    obtain ⟨-, protocol, body, hout⟩ := hemitted hok
    exact hout.totLen
  · intro hok
    rw [(hemitted hok).1]
    rfl

theorem marlinIpipEncapPacket_encapsulates (hlen : mctx.pktLen = frame.length) :
    Encapsulates host frame mctx marlinOverheadIpip
      (marlinIpipEncapPacket host frame mctx) := by
  apply Encapsulates.of_emitted
  · apply guarded_rc
    intro hmin
    exact grown_rc _ _ (by omega)
  · intro hok
    obtain ⟨-, hmctx, hout⟩ := marlinIpipEncapPacket_ok (Prod.ext hok rfl)
    exact ⟨hmctx, _, _, hout⟩

theorem marlinGueEncapPacket_encapsulates (hlen : mctx.pktLen = frame.length) :
    Encapsulates host frame mctx marlinOverheadGue
      (marlinGueEncapPacket host frame mctx) := by
  apply Encapsulates.of_emitted
  · apply guarded_rc
    intro hmin
    exact grown_rc _ _ (by omega)
  · intro hok
    obtain ⟨-, hmctx, hout⟩ := marlinGueEncapPacket_ok (Prod.ext hok rfl)
    exact ⟨hmctx, _, _, hout⟩

theorem marlinVxlanEncapPacket_encapsulates (hlen : mctx.pktLen = frame.length) :
    Encapsulates host frame mctx marlinOverheadVxlan
      (marlinVxlanEncapPacket host frame mctx) := by
  apply Encapsulates.of_emitted
  · apply guarded_rc
    intro hmin
    dsimp only
    rw [if_neg (by omega)]
    exact grown_rc _ _ (by rw [marlinOverheadVxlan]; omega)
  · intro hok
    obtain ⟨-, hmctx, hout⟩ := marlinVxlanEncapPacket_ok (Prod.ext hok rfl)
    exact ⟨hmctx, _, _, hout⟩

theorem marlinGueEncapPacket_udpLen
    (hrc : (marlinGueEncapPacket host frame mctx).1 = .ok) :
    outerUdpLen (marlinGueEncapPacket host frame mctx).2.1 =
      (8 + 4 + (mctx.pktLen - ethHlen)) % 65536 := by
  obtain ⟨-, -, hout⟩ := marlinGueEncapPacket_ok (Prod.ext hrc rfl)
  exact hout.udpLen

theorem marlinVxlanEncapPacket_udpLen
    (hrc : (marlinVxlanEncapPacket host frame mctx).1 = .ok) :
    outerUdpLen (marlinVxlanEncapPacket host frame mctx).2.1 =
      (8 + 8 + ethHlen + (mctx.pktLen - ethHlen)) % 65536 := by
  obtain ⟨-, -, hout⟩ := marlinVxlanEncapPacket_ok (Prod.ext hrc rfl)
  exact hout.udpLen

theorem Encapsulates.udpLengthTrue (h : Encapsulates host frame mctx overhead r)
    (hlen : mctx.pktLen = frame.length) (htrue : LengthsTrue frame overhead r)
    (hudp : r.1 = .ok →
      outerUdpLen r.2.1 = (overhead - 20 + (mctx.pktLen - ethHlen)) % 65536) :
    UdpLengthTrue frame overhead r := by
  intro hrc
  have hpkt := (htrue hrc).2
  have hwrap := h.pktLen hrc
  have hlt : (ethHlen + overhead + (mctx.pktLen - ethHlen)) % 65536 < 65536 :=
    Nat.mod_lt _ (by decide)
  rw [hudp hrc, hlen]
  exact Nat.mod_eq_of_lt (by omega)

end Units

/-- No outer length wraps exactly where `max_frame`, the frame's length or the headroom
keeps the frame from growing past `2 ^ 16`. -/
theorem encap_lengths_iff (host : Host) {frame : Frame} {mctx : MarlinCtx}
    (hlen : mctx.pktLen = frame.length) (hmax : mctx.cfg.maxFrame < 65536) :
    (LengthsTrue frame marlinOverheadIpip (marlinIpipEncapPacket host frame mctx) ↔
        LengthsGuarded host frame mctx marlinOverheadIpip) ∧
      (LengthsTrue frame marlinOverheadGue (marlinGueEncapPacket host frame mctx) ∧
          UdpLengthTrue frame marlinOverheadGue (marlinGueEncapPacket host frame mctx) ↔
        LengthsGuarded host frame mctx marlinOverheadGue) ∧
      (LengthsTrue frame marlinOverheadVxlan (marlinVxlanEncapPacket host frame mctx) ∧
          UdpLengthTrue frame marlinOverheadVxlan (marlinVxlanEncapPacket host frame mctx) ↔
        LengthsGuarded host frame mctx marlinOverheadVxlan) := by
  have hipip : Encapsulates host frame mctx marlinOverheadIpip _ :=
    marlinIpipEncapPacket_encapsulates hlen
  have hgue : Encapsulates host frame mctx marlinOverheadGue _ :=
    marlinGueEncapPacket_encapsulates hlen
  have hvxlan : Encapsulates host frame mctx marlinOverheadVxlan _ :=
    marlinVxlanEncapPacket_encapsulates hlen
  refine ⟨hipip.lengthsTrue_iff hlen hmax (by decide), ?_, ?_⟩
  · rw [← hgue.lengthsTrue_iff hlen hmax (by decide)]
    apply and_iff_left_of_imp
    intro htrue
    exact hgue.udpLengthTrue hlen htrue marlinGueEncapPacket_udpLen
  · rw [← hvxlan.lengthsTrue_iff hlen hmax (by decide)]
    apply and_iff_left_of_imp
    intro htrue
    exact hvxlan.udpLengthTrue hlen htrue marlinVxlanEncapPacket_udpLen

theorem encap_lengths_iff_short :
    LengthsTrue SampleTunnel.frame marlinOverheadIpip
      (marlinIpipEncapPacket Sample.host SampleTunnel.frame SampleTunnel.mctx) :=
  (encap_lengths_iff Sample.host SampleTunnel.ready.length SampleTunnel.ready.maxFrame).1.mpr
    (.inr (.inl (by decide)))

namespace SampleLength

def frame : Frame := SampleTunnel.frame ++ List.replicate 65500 0

def mctx : MarlinCtx := { SampleTunnel.mctx with pktLen := 65535 }

theorem length : mctx.pktLen = frame.length := by
  rw [frame, List.length_append, List.length_replicate]
  rfl

theorem not_guarded {overhead : Nat} (h : 1 ≤ overhead) :
    ¬LengthsGuarded Sample.host frame mctx overhead := by
  rintro (hlimit | hbound | hfails)
  · exact hlimit rfl
  · rw [← length] at hbound
    change 65535 + overhead < 65536 at hbound
    omega
  · cases hfails

end SampleLength

/-- With `max_frame = 0` a frame of `2 ^ 16 - 1` bytes is emitted with lengths that have
wrapped. -/
theorem not_lengthsTrue_jumbo :
    SampleLength.mctx.pktLen = SampleLength.frame.length ∧
      ¬LengthsTrue SampleLength.frame marlinOverheadIpip
        (marlinIpipEncapPacket Sample.host SampleLength.frame SampleLength.mctx) ∧
      ¬LengthsTrue SampleLength.frame marlinOverheadGue
        (marlinGueEncapPacket Sample.host SampleLength.frame SampleLength.mctx) ∧
      ¬LengthsTrue SampleLength.frame marlinOverheadVxlan
        (marlinVxlanEncapPacket Sample.host SampleLength.frame SampleLength.mctx) := by
  refine ⟨SampleLength.length, ?_, ?_, ?_⟩
  · rw [(marlinIpipEncapPacket_encapsulates SampleLength.length).lengthsTrue_iff
      SampleLength.length (by decide) (by decide)]
    exact SampleLength.not_guarded (by decide)
  · rw [(marlinGueEncapPacket_encapsulates SampleLength.length).lengthsTrue_iff
      SampleLength.length (by decide) (by decide)]
    exact SampleLength.not_guarded (by decide)
  · rw [(marlinVxlanEncapPacket_encapsulates SampleLength.length).lengthsTrue_iff
      SampleLength.length (by decide) (by decide)]
    exact SampleLength.not_guarded (by decide)

end Marlin
