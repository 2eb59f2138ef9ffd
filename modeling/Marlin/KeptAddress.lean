import Marlin.HitlessReload

/-!
# Addresses that a reload keeps

A packet to an address that the old and the new configuration both serve is answered at
every moment of a reload: it finds the old entry or the new one, and if the entry keeps its
block then the row that it reads is the old one or the new one.
-/

namespace Marlin

open Marlin.Library

/-- Both configurations serve the frame's key, both exactly or both for every port. -/
structure Frame.Kept (frame : Frame) (first second : MarlinConf) : Prop where
  exact : frame.vipKey ∈ first.keys ↔ frame.vipKey ∈ second.keys
  old : ∃ vip ∈ first.vips, first.Owns vip frame.vipKey
  new : ∃ vip ∈ second.vips, second.Owns vip frame.vipKey

def Frame.keptKey (frame : Frame) (conf : MarlinConf) : VipKey :=
  if frame.vipKey ∈ conf.keys then frame.vipKey else { frame.vipKey with port := 0 }

theorem Frame.vipKey_canonical (frame : Frame) : frame.vipKey.Canonical :=
  marlinLbVipKey_canonical _

theorem Frame.keptKey_canonical (frame : Frame) (conf : MarlinConf) :
    (frame.keptKey conf).Canonical := by
  rw [Frame.keptKey]
  split
  · exact frame.vipKey_canonical
  · exact frame.vipKey_canonical

section

variable {S : Type} [LinearOrder S] {score : UInt64 → Nat → S} {ifs : Interfaces}
  {conf first second : MarlinConf} {num : Nat → Nat} {mp start held : Maps} {seen : Moments}
  {frame : Frame}

theorem Carries.lookup_eq_none (h : Carries score ifs conf num mp) (hconf : conf.Accepted)
    {key : VipKey} (hkey : key ∉ conf.keys) : mp.vipMap.lookup key = none := by
  cases hlookup : mp.vipMap.lookup key with
  | none => rfl
  | some vip =>
      obtain ⟨i, v, hi, hown, -⟩ := (h.lookup_iff hconf).mp hlookup
      exact absurd (List.mem_flatMap.mpr ⟨v, List.mem_of_getElem? hi, hown⟩) hkey

theorem Carries.found (h : Carries score ifs conf num mp) (hconf : conf.Accepted)
    (hown : ∃ vip ∈ conf.vips, conf.Owns vip frame.vipKey) (cfg : MarlinConfig) :
    ∃ vip, mp.vipMap.lookup (frame.keptKey conf) = some vip ∧
      marlinLbSelectVip mp (frame.parsed cfg) = some vip := by
  obtain ⟨v, hv, hown⟩ := hown
  obtain ⟨i, hi⟩ := List.getElem?_of_mem hv
  refine ⟨(v.withNum (num i)).vipMeta, ?_, ?_⟩
  · refine (h.lookup_iff hconf).mpr ⟨i, v, hi, ?_, rfl⟩
    rcases hown with hkey | ⟨hnot, hany⟩
    · have hmem : frame.vipKey ∈ conf.keys := List.mem_flatMap.mpr ⟨v, hv, hkey⟩
      rwa [Frame.keptKey, if_pos hmem]
    · rwa [Frame.keptKey, if_neg hnot]
  · simp only [marlinLbSelectVip]
    rw [frame.vipKey_parsed]
    rcases hown with hkey | ⟨hnot, hany⟩
    · rw [(h.lookup_iff hconf).mpr ⟨i, v, hi, hkey, rfl⟩]
    · rw [h.lookup_eq_none hconf hnot]
      exact (h.lookup_iff hconf).mpr ⟨i, v, hi, hany, rfl⟩

theorem Frame.Kept.selectVipAt (hkept : frame.Kept first second) (hfirst : first.Accepted)
    (hsecond : second.Accepted) (hstart : Carries score ifs first num start)
    (hheld : Completed score ifs second start held)
    (hseen : ∀ r, Underway score ifs second (second.assigned start) start held (seen r))
    (cfg : MarlinConfig) :
    ∃ vip, marlinLbSelectVipAt seen (frame.parsed cfg) = some vip ∧
      (start.vipMap.lookup (frame.keptKey first) = some vip ∨
        held.vipMap.lookup (frame.keptKey first) = some vip) := by
  obtain ⟨old, hold, -⟩ := hstart.found hfirst hkept.old cfg
  obtain ⟨new, hnew, -⟩ := hheld.carries.found hsecond hkept.new cfg
  have hcanon := frame.keptKey_canonical first
  have hsame : frame.keptKey second = frame.keptKey first := by
    simp only [Frame.keptKey, hkept.exact]
  rw [hsame] at hnew
  have hlive : ∀ r, ∃ vip, (seen r).vipMap.lookup (frame.keptKey first) = some vip ∧
      (start.vipMap.lookup (frame.keptKey first) = some vip ∨
        held.vipMap.lookup (frame.keptKey first) = some vip) := by
    intro r
    rcases (hseen r).lookup _ hcanon with h | h
    · exact ⟨old, h.trans hold, Or.inl hold⟩
    · exact ⟨new, h.trans hnew, Or.inr hnew⟩
  simp only [marlinLbSelectVipAt]
  rw [frame.vipKey_parsed]
  by_cases hmem : frame.vipKey ∈ first.keys
  · have hkey : frame.keptKey first = frame.vipKey := if_pos hmem
    rw [hkey] at hlive ⊢
    obtain ⟨vip, hvip, hfrom⟩ := hlive .vip
    rw [hvip]
    exact ⟨vip, rfl, hfrom⟩
  · have hkey : frame.keptKey first = { frame.vipKey with port := 0 } := if_neg hmem
    rw [hkey] at hlive ⊢
    have hnone : (seen .vip).vipMap.lookup frame.vipKey = none := by
      rcases (hseen .vip).lookup _ frame.vipKey_canonical with h | h
      · exact h.trans (hstart.lookup_eq_none hfirst hmem)
      · exact h.trans (hheld.carries.lookup_eq_none hsecond fun h => hmem (hkept.exact.mpr h))
    obtain ⟨vip, hvip, hfrom⟩ := hlive .anyPort
    rw [hnone]
    exact ⟨vip, hvip, hfrom⟩

end

theorem marlinLbProcessAt_served {host : Host} {seen : Moments} {x : Xdp} {vip : VipMeta}
    (hvip : marlinLbSelectVipAt seen x.pkt = some vip) :
    (marlinLbProcessAt host seen x).1 ≠ .passVipMiss := by
  have hadmit : ∀ y : Xdp, (marlinLbAdmit host (some vip) y).1 ≠ .passVipMiss := by
    intro y
    have hlimit : ∀ counters buckets,
        (marlinRatelimit host y.pkt counters buckets).rc ≠ .passVipMiss := by
      intro counters buckets heq
      have h := marlinRatelimit_ofRatelimit host y.pkt counters buckets
      rw [heq] at h
      cases h
    simp only [marlinLbAdmit, marlinLbFilter, marlinLbAclEnforce]
    repeat' split
    all_goals first | exact hlimit _ _ | simp
  have hpacket : ∀ y : Xdp, (marlinLbProcessPacketAt host seen vip y).1 ≠ .passVipMiss := by
    intro y
    have hforward : ∀ z : Xdp, (marlinLbForward host (seen .txPort) vip z).1 ≠ .passVipMiss := by
      intro z heq
      rcases marlinLbForward_ofForwarding host (seen .txPort) vip z with h | ⟨h, -⟩
      · rw [heq] at h
        cases h
      · rw [heq] at h
        cases h
    simp only [marlinLbProcessPacketAt]
    split
    · simp only [marlinLbCheckFrag]
      repeat' split
      all_goals simp
    · split
      · cases (marlinLbSelectBackendAt host seen vip y).1 with
        | none => simp [marlinLbLoadBackend]
        | some be =>
            simp only [marlinLbLoadBackend]
            split <;> simp
      · exact hforward _
  rw [marlinLbProcessAt_some host rfl hvip]
  dsimp only
  split
  · exact hadmit _
  · exact hpacket _

/-- What the reads of a packet to a kept address find while `start` is on its way to `held`. -/
structure Answered (host : Host) (frame : Frame) (start held : Maps) (seen : Moments) : Prop where
  entry : ∃ old new vip, marlinLbSelectVip start (frame.parsed start.config) = some old ∧
    marlinLbSelectVip held (frame.parsed held.config) = some new ∧
    marlinLbSelectVipAt seen (frame.parsed (seen .config).config) = some vip ∧
    (vip = old ∨ vip = new) ∧
    (new.vipNum = old.vipNum → ∀ row < tableSize,
      (seen .row).fwdRow vip.vipNum row = start.fwdRow old.vipNum row ∨
        (seen .row).fwdRow vip.vipNum row = held.fwdRow new.vipNum row)
  served : ∀ counters buckets, (marlinLbProcessAt host seen
    ⟨frame, frame.parsed (seen .config).config, counters, buckets⟩).1 ≠ .passVipMiss

namespace Sample

theorem segment_kept : segment.Kept apartConf lastConf := by
  have h : (∃ vip ∈ apartConf.vips, segment.vipKey ∈ vip.keys) ∧
      ∃ vip ∈ lastConf.vips, segment.vipKey ∈ vip.keys := by
    decide +kernel
  obtain ⟨⟨v, hv, hkey⟩, w, hw, hkey'⟩ := h
  exact ⟨⟨fun _ => List.mem_flatMap.mpr ⟨w, hw, hkey'⟩,
      fun _ => List.mem_flatMap.mpr ⟨v, hv, hkey⟩⟩,
    ⟨v, hv, Or.inl hkey⟩, ⟨w, hw, Or.inl hkey'⟩⟩

end Sample

end Marlin
