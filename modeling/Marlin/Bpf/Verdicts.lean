import Marlin.Bpf.LbCore

/-!
# Which unit answers what

The verdicts that the forwarding units and the rate limiter can give, one rule per
function; what a verdict rules out is read off these lists.
-/

namespace Marlin

def MarlinRet.ofForwarding : MarlinRet → Bool
  | .ok | .okTx | .okRedirect | .passNotForwarded => true
  | .dropBackendUnresolved | .dropFibNoNeigh | .dropFibFwdDisabled | .dropFibBlackhole
  | .dropFibUnreachable | .dropFibProhibit | .dropFibGatewayed | .dropFibUnspec => true
  | .dropFragNeeded | .dropAdjustHead | .dropEncapLength | .dropFrameTooBig => true
  | .dropNoTxPort | .abortNullref | .dropParseError | .dropUnsupportedProto => true
  | _ => false

def MarlinRet.ofRatelimit : MarlinRet → Bool
  | .ok | .dropRatelimited | .abortNullref => true
  | _ => false

/-! ## Next hop -/

theorem marlinNexthopFib_ofForwarding (host : Host) (mp : Maps) (frame : Frame) (pkt : MarlinCtx)
    (disc : MarlinNhDiscipline) (counters : Counters) :
    (marlinNexthopFib host mp frame pkt disc counters).rc.ofForwarding = true := by
  simp only [marlinNexthopFib]
  repeat' split
  all_goals rfl

theorem marlinNexthopL2dsr_ofForwarding (host : Host) (mp : Maps) (frame : Frame)
    (pkt : MarlinCtx) (counters : Counters) :
    (marlinNexthopL2dsr host mp frame pkt counters).rc.ofForwarding = true := by
  simp only [marlinNexthopL2dsr]
  repeat' split
  all_goals first | rfl | exact marlinNexthopFib_ofForwarding ..

theorem marlinNexthopEncapsulate_ofForwarding (host : Host) (mp : Maps) (frame : Frame)
    (pkt : MarlinCtx) (counters : Counters) :
    (marlinNexthopEncapsulate host mp frame pkt counters).rc.ofForwarding = true := by
  simp only [marlinNexthopEncapsulate]
  repeat' split
  all_goals first | rfl | exact marlinNexthopFib_ofForwarding ..

/-! ## Encapsulation -/

theorem marlinEncapValidate_ofForwarding (pkt : MarlinCtx) (overhead : Nat) :
    (marlinEncapValidate pkt overhead).ofForwarding = true := by
  simp only [marlinEncapValidate, marlinFrameFits]
  repeat' split
  all_goals rfl

theorem marlinIpipEncapPacket_ofForwarding (host : Host) (frame : Frame) (pkt : MarlinCtx) :
    (marlinIpipEncapPacket host frame pkt).1.ofForwarding = true := by
  simp only [marlinIpipEncapPacket]
  by_cases hrc : marlinIpipValidate pkt = .ok
  · rw [if_neg (not_not.mpr hrc)]
    repeat' split
    all_goals rfl
  · rw [if_pos hrc]
    exact marlinEncapValidate_ofForwarding pkt _

theorem marlinGueEncapPacket_ofForwarding (host : Host) (frame : Frame) (pkt : MarlinCtx) :
    (marlinGueEncapPacket host frame pkt).1.ofForwarding = true := by
  simp only [marlinGueEncapPacket]
  by_cases hrc : marlinGueValidate pkt = .ok
  · rw [if_neg (not_not.mpr hrc)]
    repeat' split
    all_goals rfl
  · rw [if_pos hrc]
    exact marlinEncapValidate_ofForwarding pkt _

theorem marlinVxlanEncapPacket_ofForwarding (host : Host) (frame : Frame) (pkt : MarlinCtx) :
    (marlinVxlanEncapPacket host frame pkt).1.ofForwarding = true := by
  simp only [marlinVxlanEncapPacket]
  by_cases hrc : marlinVxlanValidate pkt = .ok
  · rw [if_neg (not_not.mpr hrc)]
    repeat' split
    all_goals rfl
  · rw [if_pos hrc]
    exact marlinEncapValidate_ofForwarding pkt _

theorem marlinLbEncapPacket_ofForwarding (host : Host) (frame : Frame) (pkt : MarlinCtx) :
    (marlinLbEncapPacket host frame pkt).1.ofForwarding = true ∨
      ((marlinLbEncapPacket host frame pkt).1 = .dropMapBounds ∧
        encapMode pkt.backend.flags ≠ marlinModeIpip ∧
        encapMode pkt.backend.flags ≠ marlinModeGue ∧
        encapMode pkt.backend.flags ≠ marlinModeVxlan) := by
  simp only [marlinLbEncapPacket]
  split
  · exact Or.inl (marlinIpipEncapPacket_ofForwarding host frame pkt)
  · next hipip =>
    split
    · exact Or.inl (marlinGueEncapPacket_ofForwarding host frame pkt)
    · next hgue =>
      split
      · exact Or.inl (marlinVxlanEncapPacket_ofForwarding host frame pkt)
      · next hvxlan => exact Or.inr ⟨rfl, hipip, hgue, hvxlan⟩

theorem marlinLbForward_ofForwarding (host : Host) (mp : Maps) (vip : VipMeta) (x : Xdp) :
    (marlinLbForward host mp vip x).1.ofForwarding = true ∨
      ((marlinLbForward host mp vip x).1 = .dropMapBounds ∧
        encapMode x.pkt.backend.flags ∉ confModes) := by
  simp only [marlinLbForward]
  split
  · left
    simp only [marlinLbValidate]
    repeat' split
    all_goals rfl
  · split
    · next hencap =>
      split
      · rcases marlinLbEncapPacket_ofForwarding host x.frame
          { x.pkt with flags := x.pkt.flags ||| (vip.flags &&& vipDscpMask) } with hrc | hrc
        · exact Or.inl hrc
        · exact Or.inr ⟨hrc.1, by simpa [confModes] using ⟨hencap, hrc.2⟩⟩
      · exact Or.inl (marlinNexthopEncapsulate_ofForwarding ..)
    · exact Or.inl (marlinNexthopL2dsr_ofForwarding ..)

/-! ## The rate limiter -/

theorem rlExchange_ofRatelimit (host : Host) (key : RlKey) (rate burst : UInt64) (n : Nat) :
    ∀ (access : Nat) (old : UInt64) (counters : Counters) (buckets : RatelimitMap),
      (rlExchange host key rate burst n access old counters buckets).rc.ofRatelimit = true := by
  induction n with
  | zero => exact fun _ _ _ _ => rfl
  | succ n ih =>
      intro access old counters buckets
      simp only [rlExchange]
      split
      · rfl
      · split
        · rfl
        · exact ih _ _ _ _

theorem marlinRatelimit_ofRatelimit (host : Host) (pkt : MarlinCtx) (counters : Counters)
    (buckets : RatelimitMap) :
    (marlinRatelimit host pkt counters buckets).rc.ofRatelimit = true := by
  simp only [marlinRatelimit]
  repeat' split
  all_goals first | rfl | exact rlExchange_ofRatelimit ..

end Marlin
