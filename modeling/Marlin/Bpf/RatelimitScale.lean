import Mathlib.Tactic.Linarith
import Mathlib.Tactic.Ring
import Mathlib.Tactic.FieldSimp
import Mathlib.Data.Rat.Cast.Order
import Marlin.Bpf.Ratelimit
import Marlin.Marlind.Conf

/-!
# The enforced rate

A configured rate is scaled to tokens per tick, rounded down once, and a bucket is
credited that many for each tick.  How far the credit of an interval falls behind the
configured rate is settled by the remainder of the scaling.
-/

namespace Marlin

def rlTicksBetween (t0 t1 : Nat) : Nat := t1 >>> rlTickShift - t0 >>> rlTickShift

def rlCredit (state : UInt64) (ns rate burst : Nat) : Nat :=
  rlLevel state (rlTick ns).toNat rate burst - rlTokens state

/-- A bucket that is not filled up is credited the documented share of the configured rate:
at most one part in 953 less, and one tick's worth. -/
def RateKept (tokensPerSec : Nat) : Prop :=
  ∀ burstPackets state t0 t1, 1 ≤ burstPackets → burstPackets ≤ 0xffffff → t0 ≤ t1 →
    rlStamp state = (rlTick t0).toNat →
    rlTokens state + marlindScaleRefill tokensPerSec * rlTicksBetween t0 t1 ≤
      marlindScaleBurst burstPackets →
    (tokensPerSec : ℚ) * (((t1 - t0 : Nat) : ℚ) / 10 ^ 9) * (1 - 1 / 953) -
        (marlindScaleRefill tokensPerSec : ℚ) / 2 ^ rlTokenShift ≤
      (rlCredit state t1 (marlindScaleRefill tokensPerSec) (marlindScaleBurst burstPackets) : ℚ) /
        2 ^ rlTokenShift

/-! ## Credits -/

theorem rlTick_toNat_mod (ns : Nat) : (rlTick ns).toNat = (ns >>> rlTickShift) % 2 ^ 32 := by
  rw [rlTick, toNat_and_stateMask, UInt64.toNat_ofNat']
  omega

theorem rlTicksBetween_le_credit {state : UInt64} {t0 t1 rate burst : Nat} (hle : t0 ≤ t1)
    (hstamp : rlStamp state = (rlTick t0).toNat) (hburst : burst < 2 ^ 32)
    (hroom : rlTokens state + rate * rlTicksBetween t0 t1 ≤ burst) :
    rate * rlTicksBetween t0 t1 ≤ rlCredit state t1 rate burst := by
  have hticks : t0 >>> rlTickShift ≤ t1 >>> rlTickShift := by
    rw [Nat.shiftRight_eq_div_pow, Nat.shiftRight_eq_div_pow]
    exact Nat.div_le_div_right hle
  rw [rlTick_toNat_mod] at hstamp
  rw [rlCredit, rlLevel, hstamp, rlTick_toNat_mod]
  split
  · omega
  · rename_i hnowrap
    rcases Nat.eq_zero_or_pos rate with rfl | hpos
    · omega
    · have hshort : rlTicksBetween t0 t1 ≤ rate * rlTicksBetween t0 t1 :=
        Nat.le_mul_of_pos_left _ hpos
      have helapsed : (t1 >>> rlTickShift) % 2 ^ 32 - (t0 >>> rlTickShift) % 2 ^ 32 =
          rlTicksBetween t0 t1 := by
        rw [rlTicksBetween] at hshort hroom ⊢
        omega
      rw [helapsed, Nat.mul_comm _ rate]
      omega

theorem rlCredit_eq {state : UInt64} {t0 t1 rate burst : Nat} (hle : t0 ≤ t1)
    (hstamp : rlStamp state = (rlTick t0).toNat) (hearly : t1 >>> rlTickShift < 2 ^ 32)
    (hroom : rlTokens state + rate * rlTicksBetween t0 t1 ≤ burst) :
    rlCredit state t1 rate burst = rate * rlTicksBetween t0 t1 := by
  have hticks : t0 >>> rlTickShift ≤ t1 >>> rlTickShift := by
    rw [Nat.shiftRight_eq_div_pow, Nat.shiftRight_eq_div_pow]
    exact Nat.div_le_div_right hle
  rw [rlTick_toNat (by omega)] at hstamp
  rw [rlCredit, rlLevel, hstamp, rlTick_toNat hearly, if_neg (by omega)]
  rw [rlTicksBetween] at hroom ⊢
  rw [Nat.mul_comm _ rate]
  omega

/-! ## The remainder -/

theorem share_iff (r d q c : Nat) :
    (r : ℚ) * ((d : ℚ) / 10 ^ 9) * (1 - 1 / 953) - (q : ℚ) / 2 ^ rlTokenShift ≤
        (c : ℚ) / 2 ^ rlTokenShift ↔
      256 * r * d * 952 ≤ (c + q) * 953000000000 := by
  have hcast : (256 * r * d * 952 ≤ (c + q) * 953000000000) ↔
      (256 * (r : ℚ) * d * 952 ≤ (c + q) * 953000000000) := by
    exact_mod_cast Iff.rfl
  rw [hcast, rlTokenShift]
  constructor <;> intro h <;> linarith

/-- What the remainder must not exceed for the share to be kept. -/
def RefillClose (tokensPerSec : Nat) : Prop :=
  256 * tokensPerSec % 953 * 1000000000 ≤ 256 * tokensPerSec * 1755648

instance (tokensPerSec : Nat) : Decidable (RefillClose tokensPerSec) :=
  inferInstanceAs (Decidable (_ ≤ _))

theorem marlindScaleRefill_eq {tokensPerSec : Nat} (h : tokensPerSec < 2 ^ 32) :
    marlindScaleRefill tokensPerSec = 256 * tokensPerSec / 953 := by
  have hscaled : tokensPerSec * 2 ^ 8 = 256 * tokensPerSec := Nat.mul_comm _ _
  rw [marlindScaleRefill, rlTokenShift, Nat.shiftLeft_eq, hscaled]
  exact Nat.mod_eq_of_lt (by omega)

theorem sub_lt_ticks {t0 t1 : Nat} (hle : t0 ≤ t1) :
    t1 - t0 < (rlTicksBetween t0 t1 + 1) * 2 ^ 20 := by
  rw [rlTicksBetween, rlTickShift, Nat.shiftRight_eq_div_pow, Nat.shiftRight_eq_div_pow]
  omega

theorem share_le {a q m d n : Nat} (ha : a = 953 * q + m) (hclose : m * 1000000000 ≤ a * 1755648)
    (hd : d ≤ (n + 1) * 2 ^ 20) : a * d * 952 ≤ (q * n + q) * 953000000000 := by
  have hsecond : a * 998244352 ≤ q * 953000000000 := by linarith
  calc
    a * d * 952 ≤ a * ((n + 1) * 2 ^ 20) * 952 :=
      Nat.mul_le_mul_right _ (Nat.mul_le_mul_left a hd)
    _ = (n + 1) * (a * 998244352) := by ring
    _ ≤ (n + 1) * (q * 953000000000) := Nat.mul_le_mul_left _ hsecond
    _ = (q * n + q) * 953000000000 := by ring

theorem share_exceeds {a q m n g : Nat} (ha : a = 953 * q + m)
    (hg : m * 1000000000 = a * 1755648 + g) (hn : 952 * a < (n + 1) * g) :
    (q * n + q) * 953000000000 < a * ((n + 1) * 2 ^ 20 - 1) * 952 := by
  obtain ⟨e, he⟩ := Nat.exists_eq_succ_of_ne_zero (show (n + 1) * 2 ^ 20 ≠ 0 by simp)
  rw [he, Nat.succ_sub_one]
  have hsecond : a * 998244352 = q * 953000000000 + g := by linarith
  have hspan : a * e * 952 + 952 * a = (n + 1) * (a * 998244352) := by
    calc
      a * e * 952 + 952 * a = a * (e + 1) * 952 := by ring
      _ = a * ((n + 1) * 2 ^ 20) * 952 := by rw [he]
      _ = (n + 1) * (a * 998244352) := by ring
  have hcredit : (q * n + q) * 953000000000 = (n + 1) * (q * 953000000000) := by ring
  rw [hsecond, Nat.mul_add, ← hcredit] at hspan
  linarith

theorem refillClose_of_le {r : Nat} (h : 2119 ≤ r) : RefillClose r := by
  have hrem : 256 * r % 953 < 953 := Nat.mod_lt _ (by decide)
  unfold RefillClose
  linarith

theorem exists_short_interval {r : Nat} (h : ¬RefillClose r) :
    ∃ n, 256 * r / 953 * n ≤ 0xffffff * 256 ∧ n < 2 ^ 32 ∧
      (256 * r / 953 * n + 256 * r / 953) * 953000000000 <
        256 * r * ((n + 1) * 2 ^ 20 - 1) * 952 := by
  have hrate : r < 2119 := by
    by_contra hlarge
    exact h (refillClose_of_le (Nat.not_lt.mp hlarge))
  rw [RefillClose, Nat.not_le] at h
  obtain ⟨g, hg⟩ := Nat.exists_eq_add_of_lt h
  rw [Nat.add_assoc] at hg
  have hmargin : 512 ≤ g + 1 := by
    have hsum : 512 ∣ 256 * r * 1755648 + (g + 1) := by
      rw [← hg]
      exact Dvd.dvd.mul_left (by norm_num) _
    have hleft : 512 ∣ 256 * r * 1755648 := Dvd.dvd.mul_left (by norm_num) _
    exact Nat.le_of_dvd (Nat.succ_pos g) ((Nat.dvd_add_right hleft).mp hsum)
  obtain ⟨n, hn⟩ : ∃ n, n = 952 * (256 * r) / (g + 1) := ⟨_, rfl⟩
  have hbelow : n * (g + 1) ≤ 952 * (256 * r) := hn ▸ Nat.div_mul_le_self _ _
  have habove : 952 * (256 * r) < (n + 1) * (g + 1) := by
    rw [hn, Nat.mul_comm _ (g + 1)]
    exact Nat.lt_mul_div_succ _ (Nat.succ_pos g)
  have hshort : n * 512 ≤ n * (g + 1) := Nat.mul_le_mul_left n hmargin
  have hmany : n ≤ 1100000 := by omega
  refine ⟨n, ?_, by omega, share_exceeds (Nat.div_add_mod _ 953).symm hg habove⟩
  calc
    256 * r / 953 * n ≤ 600 * 1100000 := Nat.mul_le_mul (by omega) hmany
    _ ≤ 0xffffff * 256 := by decide

theorem not_rateKept {r : Nat} (hlt : r < 2 ^ 32) (h : ¬RefillClose r) : ¬RateKept r := by
  intro hkept
  obtain ⟨n, hfits, hn, hshort⟩ := exists_short_interval h
  -- A bucket drained at the clock's start, until just before the tick after those.
  obtain ⟨t1, ht1⟩ : ∃ t1, t1 = (n + 1) * 2 ^ 20 - 1 := ⟨_, rfl⟩
  have hstamp : rlStamp 0 = (rlTick 0).toNat := by decide
  have hticks : t1 >>> rlTickShift = n := by
    rw [ht1, rlTickShift, Nat.shiftRight_eq_div_pow]
    omega
  have hbetween : rlTicksBetween 0 t1 = n := by
    rw [rlTicksBetween, hticks, Nat.zero_shiftRight, Nat.sub_zero]
  have hburst : marlindScaleBurst 0xffffff = 0xffffff * 256 := by decide
  have htokens : rlTokens 0 = 0 := by decide
  have hroom : rlTokens 0 + marlindScaleRefill r * rlTicksBetween 0 t1 ≤
      marlindScaleBurst 0xffffff := by
    rw [hburst, htokens, hbetween, Nat.zero_add, marlindScaleRefill_eq hlt]
    exact hfits
  have hcredit := hkept 0xffffff 0 0 t1 (by decide) (by decide) (Nat.zero_le t1) hstamp hroom
  rw [share_iff, rlCredit_eq (Nat.zero_le t1) hstamp (hticks ▸ hn) hroom, hbetween,
    marlindScaleRefill_eq hlt, Nat.sub_zero, ht1] at hcredit
  exact absurd hcredit (Nat.not_le.mpr hshort)

/-- The rate is kept exactly where the scaling loses little enough. -/
theorem rateKept_iff (tokensPerSec : UInt32) :
    RateKept tokensPerSec.toNat ↔ RefillClose tokensPerSec.toNat := by
  have hlt := tokensPerSec.toNat_lt
  generalize tokensPerSec.toNat = r at hlt
  constructor
  · intro hkept
    by_contra hclose
    exact not_rateKept hlt hclose hkept
  · unfold RefillClose
    intro hclose burstPackets state t0 t1 hone hmax hle hstamp hroom
    rw [share_iff]
    have hburst : marlindScaleBurst burstPackets < 2 ^ 32 := Nat.mod_lt _ (by decide)
    have hcredit := rlTicksBetween_le_credit hle hstamp hburst hroom
    have hspan := sub_lt_ticks hle
    rw [marlindScaleRefill_eq hlt] at hcredit ⊢
    have hshare := share_le (Nat.div_add_mod (256 * r) 953).symm hclose hspan.le
    exact hshare.trans (Nat.mul_le_mul_right _ (Nat.add_le_add_right hcredit _))

/-- Four tokens a second are accepted and scaled to one part in 256 of a token per tick, seven
parts in a hundred less. -/
theorem not_rateKept_four : marlindScaleRefill 4 ≠ 0 ∧ ¬RateKept 4 :=
  ⟨by decide, not_rateKept (by decide) (by decide)⟩

end Marlin
