import Mathlib.Algebra.GroupWithZero.Nat
import Mathlib.Data.List.Basic

/-!
# One's-complement sums

Addition of 16-bit words with an end-around carry, as the Internet checksum uses
it.  The sum is determined by the ordinary sum modulo `65535` and by whether all
the words are zero, which is all that a proof about a checksum needs.
-/

namespace Marlin.Library

/-- Addition with the carry added back in. -/
def onesAdd (a b : Nat) : Nat := if a + b ≤ 0xffff then a + b else a + b - 0xffff

/-- The one's-complement sum of 16-bit words. -/
def onesSum (words : List Nat) : Nat := words.foldr onesAdd 0

def carryFold (sum : Nat) : Nat := sum % 65536 + sum / 65536

@[simp] theorem onesSum_cons (w : Nat) (ws : List Nat) :
    onesSum (w :: ws) = onesAdd w (onesSum ws) := rfl

theorem onesSum_le {ws : List Nat} (h : ∀ w ∈ ws, w ≤ 0xffff) : onesSum ws ≤ 0xffff := by
  induction ws with
  | nil => simp [onesSum]
  | cons w ws ih =>
      have hw := h w (by simp)
      have htail := ih fun v hv => h v (by simp [hv])
      rw [onesSum_cons, onesAdd]
      split <;> omega

theorem onesSum_mod (ws : List Nat) : onesSum ws % 65535 = ws.sum % 65535 := by
  induction ws with
  | nil => rfl
  | cons w ws ih =>
      rw [onesSum_cons, List.sum_cons, onesAdd]
      split <;> omega

theorem onesSum_eq_zero {ws : List Nat} (h : ∀ w ∈ ws, w ≤ 0xffff)
    (hzero : onesSum ws = 0) : ws.sum = 0 := by
  induction ws with
  | nil => rfl
  | cons w ws ih =>
      have hw := h w (by simp)
      have hle := onesSum_le fun v hv => h v (List.mem_cons_of_mem w hv)
      rw [onesSum_cons, onesAdd] at hzero
      have htail : onesSum ws = 0 := by split at hzero <;> omega
      have hsum := ih (fun v hv => h v (by simp [hv])) htail
      rw [List.sum_cons, hsum]
      split at hzero <;> omega

theorem onesSum_eq_ffff {ws : List Nat} (h : ∀ w ∈ ws, w ≤ 0xffff) (hpos : 0 < ws.sum)
    (hmod : ws.sum % 65535 = 0) : onesSum ws = 0xffff := by
  have hle := onesSum_le h
  have hcongr := onesSum_mod ws
  have hne : onesSum ws ≠ 0 := fun hzero => by
    have := onesSum_eq_zero h hzero
    omega
  omega

theorem carryFold_mod (sum : Nat) : carryFold sum % 65535 = sum % 65535 := by
  rw [carryFold]
  omega

theorem carryFold_carryFold_lt {sum : Nat} (h : sum < 2 ^ 32) :
    carryFold (carryFold sum) < 65536 := by
  simp only [carryFold] at *
  omega

/-- What two folds leave of a 32-bit sum: its residue, with zero for an empty sum only. -/
theorem carryFold_carryFold {sum : Nat} (h : sum < 2 ^ 32) :
    carryFold (carryFold sum) = if sum = 0 then 0 else (sum - 1) % 65535 + 1 := by
  have hlt := carryFold_carryFold_lt h
  have hmod : carryFold (carryFold sum) % 65535 = sum % 65535 := by
    rw [carryFold_mod, carryFold_mod]
  have hzero : carryFold (carryFold sum) = 0 ↔ sum = 0 := by
    simp only [carryFold]
    omega
  split <;> omega

/-! ## Byte order -/

def byteSwap (w : Nat) : Nat := w % 256 * 256 + w / 256

/-- Summing words of either byte order gives the same result, up to its own byte order. -/
theorem byteSwap_carryFold {a b : Nat} (ha : a < 2 ^ 32) (hb : b < 2 ^ 32)
    (hmod : 256 * a % 65535 = b % 65535) (hzero : a = 0 ↔ b = 0) :
    byteSwap (carryFold (carryFold a)) = carryFold (carryFold b) := by
  rw [carryFold_carryFold ha, carryFold_carryFold hb, byteSwap]
  by_cases h : a = 0
  · rw [if_pos h, if_pos (hzero.mp h)]
  · have hb' : b ≠ 0 := fun hb' => h (hzero.mpr hb')
    rw [if_neg h, if_neg hb']
    omega

theorem byteSwap_complement {w : Nat} (h : w < 65536) :
    byteSwap (65535 - w) = 65535 - byteSwap w := by
  simp only [byteSwap]
  omega

end Marlin.Library
