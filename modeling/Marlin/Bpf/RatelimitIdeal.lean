import Marlin.Bpf.Ratelimit
import Marlin.Library.TokenBucket

/-!
# The bucket as it is meant

The packets of one source, one at a time: the word that `marlin_ratelimit` keeps for them
remembers the last admission only, and decides as a bucket that is full at first and is
refilled on every tick.  None of the machine arithmetic on the way loses anything.
-/

namespace Marlin

open Marlin.Library

/-- A packet with what its run finds: the clock, the map and the other CPUs. -/
structure RlPacket where
  host : Host
  mctx : MarlinCtx

namespace RlPacket

def tick (p : RlPacket) : Nat := p.host.ktimeGetNs 0 >>> rlTickShift

/-- The packet is metered against the bucket of `key`, on its own, and no insert fails. -/
structure Metered (p : RlPacket) (key : RlKey) (refill burst : Nat) : Prop where
  enable : p.mctx.cfg.flags &&& cfgRlEnable ≠ 0
  notAllowed : p.mctx.aclVerdict ≠ .allow
  key : p.mctx.rlKey = key
  refill : p.mctx.cfg.rlRefill = refill
  burst : p.mctx.cfg.rlBurst = burst
  alone : ∀ n word, p.host.rlRace n word = word
  inserts : p.host.rlInsertFails = false

def found (p : RlPacket) (buckets : RatelimitMap) : UInt64 :=
  match buckets p.mctx.rlKey with
  | none => (rlTick (p.host.ktimeGetNs 0) <<< 32) ||| UInt64.ofNat p.mctx.cfg.rlBurst
  | some state => state

end RlPacket

structure RlDecision where
  old : UInt64
  now : UInt64
  admitted : Bool
  deriving DecidableEq, Repr

def rlDecisions : Counters → RatelimitMap → List RlPacket → List RlDecision
  | _, _, [] => []
  | counters, buckets, p :: packets =>
      let result := marlinRatelimit p.host p.mctx counters buckets
      ⟨p.found buckets, rlTick (p.host.ktimeGetNs 0), decide (result.rc = .ok)⟩ ::
        rlDecisions result.counters result.buckets packets

/-- Every operation of `rl_spend` has the value that it has on the integers. -/
structure RlDecision.Exact (d : RlDecision) (rate burst : UInt64) : Prop where
  elapsed : (d.now.toInt64 - (d.old >>> 32).toInt64).toInt =
    (d.now.toNat : Int) - (d.old >>> 32).toNat
  forward : (d.old >>> 32).toNat ≤ d.now.toNat
  product : ((d.now.toInt64 - (d.old >>> 32).toInt64).toUInt64 * rate).toNat =
    (d.now.toNat - (d.old >>> 32).toNat) * rate.toNat
  sum : ∀ refill : UInt64, refill ≤ burst →
    ((d.old &&& marlinRlStateMask) + refill).toNat = d.old.toNat % 2 ^ 32 + refill.toNat
  rest : ∀ tokens : UInt64, marlinRlOneToken ≤ tokens → tokens ≤ burst →
    ((tokens - marlinRlOneToken) &&& marlinRlStateMask).toNat = tokens.toNat - 2 ^ rlTokenShift
  stamp : (d.now <<< 32).toNat = d.now.toNat * 2 ^ 32

/-! ## One call -/

theorem RlDecision.exact_of_stamp {d : RlDecision} {rate burst : UInt64}
    (hnow : d.now.toNat < 2 ^ 32) (hrate : rate.toNat < 2 ^ 32) (hburst : burst.toNat < 2 ^ 32)
    (hstamp : rlStamp d.old ≤ d.now.toNat) : d.Exact rate burst where
  elapsed := by
    have hlt := rlStamp_lt d.old
    rw [← toNat_shiftRight_stamp] at hlt
    exact elapsed_toInt hnow hlt
  forward := by rwa [toNat_shiftRight_stamp]
  product := by
    rw [toNat_shiftRight_stamp]
    exact toNat_refill hnow hrate hstamp
  sum := by
    intro refill hle
    rw [UInt64.le_iff_toNat_le] at hle
    rw [UInt64.toNat_add, toNat_and_stateMask, Nat.mod_eq_of_lt (by omega)]
  rest := by
    intro tokens hone hle
    rw [UInt64.le_iff_toNat_le] at hle
    rw [toNat_and_stateMask, UInt64.toNat_sub_of_le _ _ hone]
    exact Nat.mod_eq_of_lt (by omega)
  stamp := by
    rw [UInt64.toNat_shiftLeft]
    change d.now.toNat <<< 32 % 2 ^ 64 = _
    rw [Nat.shiftLeft_eq, Nat.mod_eq_of_lt (by omega)]

section Calls

variable {p : RlPacket} {key : RlKey} {refill burst : Nat}

/-- One call of `rl_spend` decides about the packet and leaves the word for the next one. -/
theorem marlinRatelimit_spend (h : p.Metered key refill burst) (counters : Counters)
    (buckets : RatelimitMap) :
    let result := marlinRatelimit p.host p.mctx counters buckets
    let spent := rlSpend (p.found buckets) (rlTick (p.host.ktimeGetNs 0)) (UInt64.ofNat refill)
      (UInt64.ofNat burst)
    (result.rc = .ok ↔ spent.isSome = true) ∧ result.buckets key = spent.or (buckets key) := by
  obtain ⟨henable, hacl, rfl, rfl, rfl, halone, hinserts⟩ := h
  cases hbucket : buckets p.mctx.rlKey with
  | none =>
      simp only [marlinRatelimit, henable, hacl, if_false, RlPacket.found, hbucket]
      split
      · next hspend => simp [hspend, hbucket]
      · next fresh hspend => simp [hspend, hinserts]
  | some state =>
      simp only [marlinRatelimit_alone henable hacl halone hbucket, RlPacket.found, hbucket]
      split
      · next hspend => simp [hspend, hbucket]
      · next next hspend => simp [hspend]

end Calls

theorem rlLevel_eq {word : UInt64} {t refill burst : Nat} (hstamp : rlStamp word ≤ t) :
    rlLevel word t refill burst =
      min burst (rlTokens word + (t - rlStamp word) * refill) := by
  rw [rlLevel, if_neg (Nat.not_lt.mpr hstamp)]
  omega

/-! ## Whole sequences -/

section Sequences

variable {key : RlKey} {refill burst : Nat} (hrefill : refill < 2 ^ 32) (hburst : burst < 2 ^ 32)

include hrefill hburst

theorem marlinRatelimit_hit {p : RlPacket} (h : p.Metered key refill burst)
    (hclock : p.tick < 2 ^ 32) (counters : Counters) {buckets : RatelimitMap} {word : UInt64}
    (hword : p.found buckets = word) (hstamp : rlStamp word ≤ p.tick) :
    let result := marlinRatelimit p.host p.mctx counters buckets
    let found := min burst (rlTokens word + (p.tick - rlStamp word) * refill)
    if 2 ^ rlTokenShift ≤ found then
      result.rc = .ok ∧ ∃ next, result.buckets key = some next ∧ rlStamp next = p.tick ∧
        rlTokens next = found - 2 ^ rlTokenShift
    else result.rc ≠ .ok ∧ result.buckets key = buckets key := by
  intro result found
  have hnow : (rlTick (p.host.ktimeGetNs 0)).toNat = p.tick := rlTick_toNat hclock
  have hrate : (UInt64.ofNat refill).toNat = refill := by
    rw [UInt64.toNat_ofNat']
    omega
  have hcap : (UInt64.ofNat burst).toNat = burst := by
    rw [UInt64.toNat_ofNat']
    omega
  obtain ⟨hrc, hnext⟩ := marlinRatelimit_spend h counters buckets
  rw [hword, rlSpend_eq (by omega) (by omega) (by omega), hnow, hrate, hcap,
    rlLevel_eq hstamp] at hrc hnext
  split
  · next hpaid =>
    have hle : found ≤ burst := Nat.min_le_left _ _
    have hlt := Nat.lt_of_le_of_lt (Nat.sub_le _ (2 ^ rlTokenShift)) (Nat.lt_of_le_of_lt hle hburst)
    rw [if_neg (Nat.not_lt.mpr hpaid)] at hrc hnext
    exact ⟨hrc.mpr rfl, _, hnext, rlStamp_rlWord hclock hlt, rlTokens_rlWord hclock hlt⟩
  · next hshort =>
    rw [if_pos (Nat.not_le.mp hshort)] at hrc hnext
    exact ⟨fun hok => Bool.false_ne_true (hrc.mp hok), hnext⟩

theorem exact_of_found {p : RlPacket} (hclock : p.tick < 2 ^ 32) {word : UInt64}
    (hstamp : rlStamp word ≤ p.tick) (admitted : Bool) :
    RlDecision.Exact ⟨word, rlTick (p.host.ktimeGetNs 0), admitted⟩ (UInt64.ofNat refill)
      (UInt64.ofNat burst) := by
  have hnow : (rlTick (p.host.ktimeGetNs 0)).toNat = p.tick := rlTick_toNat hclock
  apply RlDecision.exact_of_stamp
  · rwa [hnow]
  · rw [UInt64.toNat_ofNat']
    omega
  · rw [UInt64.toNat_ofNat']
    omega
  · rwa [hnow]

theorem rlDecisions_hit {packets : List RlPacket}
    (hmetered : ∀ p ∈ packets, p.Metered key refill burst)
    (hclock : ∀ p ∈ packets, p.tick < 2 ^ 32) (counters : Counters)
    {buckets : RatelimitMap} {word : UInt64} (hword : buckets key = some word)
    (hticks : (rlStamp word :: packets.map RlPacket.tick).Pairwise (· ≤ ·)) :
    (rlDecisions counters buckets packets).map RlDecision.admitted =
        lazyAdmits (2 ^ rlTokenShift) burst refill (rlStamp word) (rlTokens word)
          (packets.map RlPacket.tick) ∧
      ∀ d ∈ rlDecisions counters buckets packets,
        d.Exact (UInt64.ofNat refill) (UInt64.ofNat burst) := by
  induction packets generalizing counters buckets word with
  | nil => simp [rlDecisions, lazyAdmits]
  | cons p packets ih =>
      have hp := hmetered p (by simp)
      have htick := hclock p (by simp)
      rw [List.map_cons, List.pairwise_cons] at hticks
      have hstamp : rlStamp word ≤ p.tick := hticks.1 p.tick (by simp)
      have hfound : p.found buckets = word := by
        rw [RlPacket.found, hp.key, hword]
      have hexact : ∀ admitted, RlDecision.Exact ⟨p.found buckets, _, admitted⟩ _ _ :=
        fun admitted => hfound ▸ exact_of_found hrefill hburst htick hstamp admitted
      have hhit := marlinRatelimit_hit hrefill hburst hp htick counters hfound hstamp
      simp only [rlDecisions, List.map_cons, lazyAdmits, List.forall_mem_cons]
      dsimp only at hhit
      split at hhit
      · next hpaid =>
        obtain ⟨hok, next, hnext, hstamped, hleft⟩ := hhit
        rw [if_pos hpaid, hok]
        have hrest := ih (fun q hq => hmetered q (by simp [hq]))
          (fun q hq => hclock q (by simp [hq]))
          (marlinRatelimit p.host p.mctx counters buckets).counters hnext
          (hstamped ▸ hticks.2)
        rw [hrest.1, hstamped, hleft]
        exact ⟨rfl, hexact _, hrest.2⟩
      · next hshort =>
        obtain ⟨hdropped, hsame⟩ := hhit
        rw [if_neg hshort, decide_eq_false hdropped]
        have hrest := ih (fun q hq => hmetered q (by simp [hq]))
          (fun q hq => hclock q (by simp [hq]))
          (marlinRatelimit p.host p.mctx counters buckets).counters (hsame.trans hword)
          (List.pairwise_cons.mpr ⟨fun t ht => hticks.1 t (List.mem_cons_of_mem _ ht),
            (List.pairwise_cons.mp hticks.2).2⟩)
        rw [hrest.1]
        exact ⟨rfl, hexact _, hrest.2⟩

/-- The decisions about the packets of a new source are those of a bucket that is full at first
and is refilled on every tick, and no operation behind them wraps. -/
theorem rlDecisions_eq (htoken : 2 ^ rlTokenShift ≤ burst) (packets : List RlPacket)
    (hmetered : ∀ p ∈ packets, p.Metered key refill burst)
    (hclock : ∀ p ∈ packets, p.tick < 2 ^ 32)
    (hticks : (packets.map RlPacket.tick).Pairwise (· ≤ ·)) (counters : Counters)
    (buckets : RatelimitMap) (hnew : buckets key = none) :
    (rlDecisions counters buckets packets).map RlDecision.admitted =
        bucketAdmits (2 ^ rlTokenShift) burst refill 0 burst (packets.map RlPacket.tick) ∧
      ∀ d ∈ rlDecisions counters buckets packets,
        d.Exact (UInt64.ofNat refill) (UInt64.ofNat burst) := by
  cases packets with
  | nil => simp [rlDecisions, bucketAdmits]
  | cons p packets =>
      have hp := hmetered p (by simp)
      have htick := hclock p (by simp)
      rw [List.map_cons, List.pairwise_cons] at hticks
      have hnow : (rlTick (p.host.ktimeGetNs 0)).toNat = p.tick := rlTick_toNat htick
      have hcap : (UInt64.ofNat burst).toNat = burst := by
        rw [UInt64.toNat_ofNat']
        omega
      have hfound : p.found buckets = rlWord p.tick burst := by
        rw [RlPacket.found, hp.key, hnew, hp.burst]
        change (rlTick _ <<< 32) ||| UInt64.ofNat burst = _
        rw [shiftLeft_or_eq_rlWord (by omega) (by omega), hnow, hcap]
      have hstamp : rlStamp (rlWord p.tick burst) = p.tick := rlStamp_rlWord htick hburst
      have htokens : rlTokens (rlWord p.tick burst) = burst := rlTokens_rlWord htick hburst
      have hexact : ∀ admitted, RlDecision.Exact ⟨p.found buckets, _, admitted⟩ _ _ :=
        fun admitted => hfound ▸ exact_of_found hrefill hburst htick (Nat.le_of_eq hstamp) admitted
      have hhit := marlinRatelimit_hit hrefill hburst hp htick counters hfound
        (Nat.le_of_eq hstamp)
      -- the full bucket stays full until the first packet, which it lets through
      have hfull : (refillTick burst refill)^[p.tick - 0] burst = burst := by
        rw [refillTick_iterate burst refill (Nat.le_refl burst)]
        omega
      simp only [hstamp, htokens, Nat.sub_self, Nat.zero_mul, Nat.add_zero, Nat.min_self,
        htoken, if_true] at hhit
      obtain ⟨hok, next, hnext, hstamped, hleft⟩ := hhit
      have hrest := rlDecisions_hit hrefill hburst
        (fun q hq => hmetered q (by simp [hq])) (fun q hq => hclock q (by simp [hq]))
        (marlinRatelimit p.host p.mctx counters buckets).counters hnext
        (List.pairwise_cons.mpr ⟨hstamped ▸ hticks.1, hticks.2⟩)
      simp only [rlDecisions, List.map_cons, bucketAdmits, List.forall_mem_cons, hfull, htoken,
        if_true, hok]
      rw [hrest.1, hstamped, hleft, lazyAdmits_eq (2 ^ rlTokenShift) burst refill
        (Nat.le_refl p.tick) (List.pairwise_cons.mpr hticks), Nat.sub_self, Nat.zero_mul,
        Nat.add_zero, Nat.min_eq_right (Nat.sub_le _ _)]
      exact ⟨rfl, hexact _, hrest.2⟩

end Sequences

def Sample.packetAt (ns : Nat) : RlPacket where
  host := { Sample.host with ktimeGetNs := fun _ => ns }
  mctx := MarlinCtx.start { (0 : MarlinConfig) with
    flags := cfgRlEnable, rlRefill := 256, rlBurst := 512 }

theorem Sample.packetAt_metered (ns : Nat) :
    (Sample.packetAt ns).Metered (0 : MarlinCtx).rlKey 256 512 :=
  ⟨(by decide : cfgRlEnable &&& cfgRlEnable ≠ 0), (by decide : MarlinAclVerdict.none ≠ .allow),
    rfl, rfl, rfl, fun _ _ => rfl, rfl⟩

theorem rlDecisions_eq_four :
    (rlDecisions Sample.counters (fun _ => none)
      ([0, 0, 0, 2 ^ 20].map Sample.packetAt)).map RlDecision.admitted =
        [true, true, false, true] := by
  have hdecisions := rlDecisions_eq (by decide : 256 < 2 ^ 32) (by decide : 512 < 2 ^ 32)
    (by decide) ([0, 0, 0, 2 ^ 20].map Sample.packetAt)
    (List.forall_mem_map.mpr fun ns _ => Sample.packetAt_metered ns) (by decide) (by decide)
    Sample.counters (fun _ => none) rfl
  rw [hdecisions.1]
  decide

end Marlin
