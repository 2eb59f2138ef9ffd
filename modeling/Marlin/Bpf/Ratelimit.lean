import Marlin.Bpf.Stats

/-!
# Rate limiting

`ratelimit.c`: a token bucket per source in one 64-bit word, the timestamp in the
upper half and the tokens in the lower one.
-/

namespace Marlin

def marlinRlOneToken : UInt64 := (1 : UInt64) <<< 8
def marlinRlStateMask : UInt64 := 0xffffffff

structure RlKey where
  addr : Addr
  family : UInt8
  deriving DecidableEq, Repr

/-- The `ratelimit` map; `struct rl_bucket` is its state word. -/
abbrev RatelimitMap := RlKey → Option UInt64

/-- The word that the exchange or the insert stores; `none` is `MARLIN_DROP_RATELIMITED`. -/
def rlSpend (old now rate burst : UInt64) : Option UInt64 :=
  let elapsed : Int64 := now.toInt64 - (old >>> 32).toInt64
  let refill :=
    if elapsed < 0 then burst
    else
      let refill := elapsed.toUInt64 * rate
      if refill > burst then burst else refill
  let tokens := (old &&& marlinRlStateMask) + refill
  let tokens := if tokens > burst then burst else tokens
  if tokens < marlinRlOneToken then none
  else some ((now <<< 32) ||| ((tokens - marlinRlOneToken) &&& marlinRlStateMask))

/-- The coarse timestamp, masked to the 32 bits that the state word carries. -/
def rlTick (ns : Nat) : UInt64 := UInt64.ofNat (ns >>> rlTickShift) &&& marlinRlStateMask

def MarlinCtx.rlKey (mctx : MarlinCtx) : RlKey := ⟨mctx.tuple.src, mctx.tuple.family⟩

/-- The verdict, the counters and the map; both are as they were when nothing is said. -/
structure RlResult where
  rc : MarlinRet
  counters : Counters
  buckets : RatelimitMap

/-- The retry loop of `marlin_ratelimit` with `n` attempts left. -/
def rlExchange (host : Host) (key : RlKey) (rate burst : UInt64) :
    Nat → Nat → UInt64 → Counters → RatelimitMap → RlResult
  | 0, _, _, counters, buckets =>
      ⟨.ok, marlinStatsReason .countRlCasExhausted counters, buckets⟩
  | n + 1, access, old, counters, buckets =>
      let now := rlTick (host.ktimeGetNs (access - 1))
      match rlSpend old now rate burst with
      | none => ⟨.dropRatelimited, counters, buckets⟩
      | some next =>
          -- what the exchange finds, which another CPU may have changed
          let prev := host.rlRace access ((buckets key).getD old)
          if prev = old then
            ⟨.ok, counters, Function.update buckets key (some next)⟩
          else
            rlExchange host key rate burst n (access + 1) prev counters
              (Function.update buckets key (some prev))

def marlinRatelimit (host : Host) (mctx : MarlinCtx) (counters : Counters)
    (buckets : RatelimitMap) : RlResult :=
  if mctx.cfg.flags &&& cfgRlEnable = 0 then ⟨.ok, counters, buckets⟩
  else if mctx.aclVerdict = .allow then ⟨.ok, counters, buckets⟩
  else
    let rate := UInt64.ofNat mctx.cfg.rlRefill
    let burst := UInt64.ofNat mctx.cfg.rlBurst
    match buckets mctx.rlKey with
    | none =>
        let now := rlTick (host.ktimeGetNs 0)
        match rlSpend ((now <<< 32) ||| burst) now rate burst with
        | none => ⟨.dropRatelimited, counters, buckets⟩
        | some fresh =>
            if host.rlInsertFails then
              ⟨.ok, marlinStatsReason .countRlInsertFailed counters, buckets⟩
            else ⟨.ok, counters, Function.update buckets mctx.rlKey (some fresh)⟩
    | some state =>
        let old := host.rlRace 0 state
        rlExchange host mctx.rlKey rate burst rlCasRetries 1 old counters
          (Function.update buckets mctx.rlKey (some old))

theorem marlinRatelimit_alone {host : Host} {mctx : MarlinCtx} {buckets : RatelimitMap}
    {state : UInt64} (henable : mctx.cfg.flags &&& cfgRlEnable ≠ 0)
    (hacl : mctx.aclVerdict ≠ .allow) (halone : ∀ n word, host.rlRace n word = word)
    (hbucket : buckets mctx.rlKey = some state) (counters : Counters) :
    marlinRatelimit host mctx counters buckets =
      match rlSpend state (rlTick (host.ktimeGetNs 0)) (UInt64.ofNat mctx.cfg.rlRefill)
          (UInt64.ofNat mctx.cfg.rlBurst) with
      | none => ⟨.dropRatelimited, counters, buckets⟩
      | some next => ⟨.ok, counters, Function.update buckets mctx.rlKey (some next)⟩ := by
  have hsame : Function.update buckets mctx.rlKey (some state) = buckets := by
    rw [← hbucket, Function.update_eq_self]
  obtain ⟨n, hretries⟩ : ∃ n, rlCasRetries = n + 1 := ⟨_, rfl⟩
  simp only [marlinRatelimit, henable, hacl, if_false, hbucket, halone, hsame, hretries]
  unfold rlExchange
  simp only [halone, hbucket, Option.getD_some, if_true, Nat.sub_self]

/-! ## The state word -/

def rlStamp (state : UInt64) : Nat := state.toNat >>> 32
def rlTokens (state : UInt64) : Nat := state.toNat % 2 ^ 32
def rlWord (stamp tokens : Nat) : UInt64 := UInt64.ofNat (stamp <<< 32 + tokens)

theorem rlStamp_lt (state : UInt64) : rlStamp state < 2 ^ 32 := by
  have := state.toNat_lt
  rw [rlStamp, Nat.shiftRight_eq_div_pow]
  omega

theorem toNat_and_stateMask (x : UInt64) :
    (x &&& marlinRlStateMask).toNat = x.toNat % 2 ^ 32 := by
  rw [UInt64.toNat_and]
  exact Nat.and_two_pow_sub_one_eq_mod x.toNat 32

theorem rlWord_toNat {stamp tokens : Nat} (hs : stamp < 2 ^ 32) (ht : tokens < 2 ^ 32) :
    (rlWord stamp tokens).toNat = stamp * 2 ^ 32 + tokens := by
  rw [rlWord, UInt64.toNat_ofNat', Nat.shiftLeft_eq, Nat.mod_eq_of_lt (by omega)]

theorem rlStamp_rlWord {stamp tokens : Nat} (hs : stamp < 2 ^ 32) (ht : tokens < 2 ^ 32) :
    rlStamp (rlWord stamp tokens) = stamp := by
  rw [rlStamp, rlWord_toNat hs ht, Nat.shiftRight_eq_div_pow]
  omega

theorem rlTokens_rlWord {stamp tokens : Nat} (hs : stamp < 2 ^ 32) (ht : tokens < 2 ^ 32) :
    rlTokens (rlWord stamp tokens) = tokens := by
  rw [rlTokens, rlWord_toNat hs ht]
  omega

theorem shiftLeft_or_eq_rlWord {now tokens : UInt64} (hn : now.toNat < 2 ^ 32)
    (ht : tokens.toNat < 2 ^ 32) :
    (now <<< 32) ||| tokens = rlWord now.toNat tokens.toNat := by
  apply UInt64.toNat_inj.mp
  have hshift : (now <<< 32).toNat = now.toNat <<< 32 := by
    rw [UInt64.toNat_shiftLeft]
    apply Nat.mod_eq_of_lt
    change now.toNat <<< 32 < 2 ^ 64
    rw [Nat.shiftLeft_eq]
    omega
  rw [UInt64.toNat_or, hshift, rlWord_toNat hn ht, ← Nat.shiftLeft_add_eq_or_of_lt ht,
    Nat.shiftLeft_eq]

theorem rlTick_toNat {ns : Nat} (h : ns >>> rlTickShift < 2 ^ 32) :
    (rlTick ns).toNat = ns >>> rlTickShift := by
  rw [rlTick, toNat_and_stateMask, UInt64.toNat_ofNat',
    Nat.mod_eq_of_lt (Nat.lt_trans h (by decide)), Nat.mod_eq_of_lt h]

/-! ## What a call of `rl_spend` finds and leaves -/

def rlLevel (old : UInt64) (now rate burst : Nat) : Nat :=
  let refill :=
    if now < rlStamp old then burst else min ((now - rlStamp old) * rate) burst
  min (rlTokens old + refill) burst

theorem toInt_of_lt {x : UInt64} (hx : x.toNat < 2 ^ 32) : x.toInt64.toInt = x.toNat := by
  have hbits : x.toInt64.toBitVec = x.toBitVec := rfl
  rw [Int64.toInt, hbits, BitVec.toInt_eq_toNat_cond, if_pos (by simp; omega)]
  rfl

theorem elapsed_toInt {now stamp : UInt64} (hn : now.toNat < 2 ^ 32) (hs : stamp.toNat < 2 ^ 32) :
    (now.toInt64 - stamp.toInt64).toInt = (now.toNat : Int) - stamp.toNat := by
  rw [Int64.toInt_sub, toInt_of_lt hn, toInt_of_lt hs,
    Int.bmod_eq_of_le (by simp; omega) (by simp; omega)]

theorem toNat_shiftRight_stamp (old : UInt64) : (old >>> 32).toNat = rlStamp old := by
  rw [UInt64.toNat_shiftRight]
  rfl

theorem elapsed_neg_iff {now stamp : UInt64} (hn : now.toNat < 2 ^ 32)
    (hs : stamp.toNat < 2 ^ 32) :
    now.toInt64 - stamp.toInt64 < 0 ↔ now.toNat < stamp.toNat := by
  rw [Int64.lt_iff_toInt_lt, elapsed_toInt hn hs]
  simp only [Int64.toInt_zero]
  omega

private theorem toNat_clamp (x burst : UInt64) :
    (if x > burst then burst else x).toNat = min x.toNat burst.toNat := by
  split
  · next h =>
    rw [gt_iff_lt, UInt64.lt_iff_toNat_lt] at h
    omega
  · next h =>
    rw [gt_iff_lt, UInt64.lt_iff_toNat_lt] at h
    omega

/-- The product is taken in 64 bits, where it cannot wrap. -/
theorem toNat_refill {old now rate : UInt64} (hn : now.toNat < 2 ^ 32)
    (hr : rate.toNat < 2 ^ 32) (hle : rlStamp old ≤ now.toNat) :
    ((now.toInt64 - (old >>> 32).toInt64).toUInt64 * rate).toNat =
      (now.toNat - rlStamp old) * rate.toNat := by
  have hstamp := toNat_shiftRight_stamp old
  have helapsed : (now.toInt64 - (old >>> 32).toInt64).toUInt64 = now - old >>> 32 := by
    simp
  have hdiff : (now - old >>> 32).toNat = now.toNat - rlStamp old := by
    rw [UInt64.toNat_sub_of_le _ _ (by rwa [UInt64.le_iff_toNat_le, hstamp]), hstamp]
  rw [helapsed, UInt64.toNat_mul, hdiff]
  apply Nat.mod_eq_of_lt
  calc
    (now.toNat - rlStamp old) * rate.toNat ≤ (2 ^ 32 - 1) * (2 ^ 32 - 1) :=
      Nat.mul_le_mul (by omega) (by omega)
    _ < 2 ^ 64 := by decide

theorem rlSpend_eq {old now rate burst : UInt64} (hn : now.toNat < 2 ^ 32)
    (hr : rate.toNat < 2 ^ 32) (hb : burst.toNat < 2 ^ 32) :
    rlSpend old now rate burst =
      if rlLevel old now.toNat rate.toNat burst.toNat < 2 ^ rlTokenShift then none
      else some (rlWord now.toNat
        (rlLevel old now.toNat rate.toNat burst.toNat - 2 ^ rlTokenShift)) := by
  have hstamp := toNat_shiftRight_stamp old
  have hneg : now.toInt64 - (old >>> 32).toInt64 < 0 ↔ now.toNat < rlStamp old := by
    rw [elapsed_neg_iff hn (hstamp ▸ rlStamp_lt old), hstamp]
  have hone : marlinRlOneToken.toNat = 2 ^ rlTokenShift := by decide
  simp only [rlSpend, hneg]
  generalize hrefill : (if now.toNat < rlStamp old then burst else _) = refill
  have hrefill : refill.toNat = if now.toNat < rlStamp old then burst.toNat
      else min ((now.toNat - rlStamp old) * rate.toNat) burst.toNat := by
    rw [← hrefill]
    split
    · rfl
    · next hle => rw [toNat_clamp, toNat_refill hn hr (Nat.le_of_not_lt hle)]
  generalize htokens : (if (old &&& marlinRlStateMask) + refill > burst then burst else _) =
    tokens
  have htokens : tokens.toNat = rlLevel old now.toNat rate.toNat burst.toNat := by
    have hbound : refill.toNat ≤ burst.toNat := by
      rw [hrefill]
      split <;> omega
    have hlow := toNat_and_stateMask old
    rw [← htokens, toNat_clamp, UInt64.toNat_add, hlow, Nat.mod_eq_of_lt (by omega),
      rlLevel, ← hrefill, rlTokens]
  have hlevel : tokens.toNat < 2 ^ 32 := by
    rw [htokens, rlLevel]
    omega
  simp only [UInt64.lt_iff_toNat_lt, hone, htokens]
  split
  · rfl
  · next hge =>
    have hspent : (tokens - marlinRlOneToken).toNat =
        rlLevel old now.toNat rate.toNat burst.toNat - 2 ^ rlTokenShift := by
      rw [UInt64.toNat_sub_of_le _ _ (by rw [UInt64.le_iff_toNat_le]; omega), hone, htokens]
    have hmask : ((tokens - marlinRlOneToken) &&& marlinRlStateMask).toNat =
        rlLevel old now.toNat rate.toNat burst.toNat - 2 ^ rlTokenShift := by
      rw [toNat_and_stateMask, hspent, Nat.mod_eq_of_lt (by omega)]
    rw [shiftLeft_or_eq_rlWord hn (by rw [hmask]; omega), hmask]

theorem rlLevel_le_burst (old : UInt64) (now rate burst : Nat) :
    rlLevel old now rate burst ≤ burst :=
  Nat.min_le_right _ _

theorem rlLevel_le_refilled {old : UInt64} {now : Nat} (rate burst : Nat)
    (h : rlStamp old ≤ now) :
    rlLevel old now rate burst ≤ rlTokens old + rate * (now - rlStamp old) := by
  rw [rlLevel, if_neg (Nat.not_lt.mpr h), Nat.mul_comm]
  omega

theorem rlSpend_some {old now rate burst next : UInt64} (hn : now.toNat < 2 ^ 32)
    (hr : rate.toNat < 2 ^ 32) (hb : burst.toNat < 2 ^ 32)
    (h : rlSpend old now rate burst = some next) :
    rlStamp next = now.toNat ∧
      rlTokens next + 2 ^ rlTokenShift = rlLevel old now.toNat rate.toNat burst.toNat := by
  have hlevel := rlLevel_le_burst old now.toNat rate.toNat burst.toNat
  rw [rlSpend_eq hn hr hb] at h
  split at h
  · cases h
  · next hge =>
    obtain rfl := Option.some.inj h
    have hlt := Nat.lt_of_le_of_lt (Nat.sub_le _ (2 ^ rlTokenShift))
      (Nat.lt_of_le_of_lt hlevel hb)
    rw [rlStamp_rlWord hn hlt, rlTokens_rlWord hn hlt, Nat.sub_add_cancel (Nat.not_lt.mp hge)]
    exact ⟨rfl, rfl⟩

end Marlin
