import Mathlib.Data.Nat.Bitwise
import Mathlib.Data.Set.Basic
import Mathlib.Tactic.Ring

/-!
# Prefixes

Sets of sequences that share their first letters, and the bits of a byte string,
most significant first, as the sequence that a prefix of it is about.
-/

namespace Marlin.Library

/-! ## Cylinders -/

section Cylinder

variable {α : Type*}

/-- The sequences that agree with `a` on the first `n` letters. -/
def cylinder (a : Nat → α) (n : Nat) : Set (Nat → α) := {x | ∀ i < n, x i = a i}

theorem cylinder_subset_iff [Nontrivial α] {a b : Nat → α} {m n : Nat} :
    cylinder a m ⊆ cylinder b n ↔ n ≤ m ∧ ∀ i < n, a i = b i := by
  constructor
  · intro hsub
    have ha : ∀ i < n, a i = b i := hsub fun _ _ => rfl
    refine ⟨?_, ha⟩
    by_contra hlt
    -- A sequence that leaves `a` at the first letter that the narrower set does not fix.
    obtain ⟨c, hc⟩ := exists_ne (b m)
    have hx : Function.update a m c ∈ cylinder a m := fun i hi =>
      Function.update_of_ne (by omega) c a
    have hm := hsub hx m (by omega)
    rw [Function.update_self] at hm
    exact hc hm
  · rintro ⟨hle, hab⟩ x hx i hi
    rw [hx i (by omega), hab i hi]

end Cylinder

/-! ## Bits of byte strings -/

/-- Bit `i`, counted from the most significant bit of the first byte. -/
def bitAt (bytes : List UInt8) (i : Nat) : Bool :=
  (bytes.getD (i / 8) 0).toBitVec.getMsbD (i % 8)

theorem bitAt_mul_add (bytes : List UInt8) (k : Nat) {j : Nat} (h : j < 8) :
    bitAt bytes (k * 8 + j) = (bytes.getD k 0).toBitVec.getMsbD j := by
  have hdiv : (k * 8 + j) / 8 = k := by omega
  have hmod : (k * 8 + j) % 8 = j := by omega
  rw [bitAt, hdiv, hmod]

theorem byte_eq_iff {x y : UInt8} :
    x = y ↔ ∀ j < 8, x.toBitVec.getMsbD j = y.toBitVec.getMsbD j := by
  constructor
  · rintro rfl j -
    rfl
  · intro h
    exact UInt8.toBitVec_inj.mp (BitVec.eq_of_getMsbD_eq h)

theorem getMsbD_byte (x : UInt8) {j : Nat} (h : j < 8) :
    x.toBitVec.getMsbD j = x.toNat.testBit (7 - j) := by
  rw [BitVec.getMsbD_eq_getLsbD, decide_eq_true h, Bool.true_and]
  rfl

theorem exists_bitAt (f : Nat → Bool) (n : Nat) :
    ∃ bytes : List UInt8, bytes.length = n ∧ ∀ i < 8 * n, bitAt bytes i = f i := by
  refine ⟨(List.range n).map fun k =>
    UInt8.ofNat (Nat.ofBits fun j : Fin 8 => f (k * 8 + (7 - j))), by simp, fun i hi => ?_⟩
  have hj : 7 - i % 8 < 8 := by omega
  have hback : i / 8 * 8 + (7 - (7 - i % 8)) = i := by omega
  have hlt := Nat.ofBits_lt_two_pow fun j : Fin 8 => f (i / 8 * 8 + (7 - j))
  rw [bitAt, getMsbD_byte _ (Nat.mod_lt i (by decide)), List.getD_eq_getElem?_getD,
    List.getElem?_map, List.getElem?_range (by omega), Option.map_some, Option.getD_some,
    UInt8.toNat_ofNat', Nat.mod_eq_of_lt hlt, Nat.testBit_ofBits_lt _ _ hj, hback]

/-! ## Numbers -/

/-- The number that bytes spell, most significant first. -/
def beNat : List UInt8 → Nat
  | [] => 0
  | b :: bytes => 2 ^ (8 * bytes.length) * b.toNat + beNat bytes

theorem beNat_lt (bytes : List UInt8) : beNat bytes < 2 ^ (8 * bytes.length) := by
  induction bytes with
  | nil => simp [beNat]
  | cons b bytes ih =>
      have hb := b.toNat_lt
      have hstep : 2 ^ (8 * bytes.length) * (b.toNat + 1) ≤ 2 ^ (8 * bytes.length) * 256 :=
        Nat.mul_le_mul_left _ hb
      rw [beNat, List.length_cons, Nat.mul_succ, Nat.pow_add]
      rw [Nat.mul_add, Nat.mul_one] at hstep
      omega

theorem testBit_beNat {bytes : List UInt8} {i : Nat} (h : i < 8 * bytes.length) :
    (beNat bytes).testBit (8 * bytes.length - 1 - i) = bitAt bytes i := by
  induction bytes generalizing i with
  | nil => simp at h
  | cons b bytes ih =>
      rw [List.length_cons] at h ⊢
      rw [beNat, Nat.testBit_two_pow_mul_add _ (beNat_lt bytes)]
      by_cases hi : i < 8
      · have hfirst := bitAt_mul_add (b :: bytes) 0 hi
        rw [Nat.zero_mul, Nat.zero_add] at hfirst
        have hbit : 8 * (bytes.length + 1) - 1 - i - 8 * bytes.length = 7 - i := by omega
        rw [if_neg (by omega), hfirst, hbit]
        exact (getMsbD_byte b hi).symm
      · have hlater : bitAt (b :: bytes) i = bitAt bytes (i - 8) := by
          have hdiv : i / 8 = (i - 8) / 8 + 1 := by omega
          have hmod : i % 8 = (i - 8) % 8 := by omega
          rw [bitAt, bitAt, hdiv, hmod, List.getD_cons_succ]
        have hbit : 8 * (bytes.length + 1) - 1 - i = 8 * bytes.length - 1 - (i - 8) := by omega
        rw [if_pos (by omega), hbit, ih (by omega), hlater]

theorem beNat_div_eq_iff {xs ys : List UInt8} {n p : Nat} (hx : xs.length = n)
    (hy : ys.length = n) (hp : p ≤ 8 * n) :
    beNat xs / 2 ^ (8 * n - p) = beNat ys / 2 ^ (8 * n - p) ↔
      ∀ i < p, bitAt xs i = bitAt ys i := by
  have hbit : ∀ {zs : List UInt8}, zs.length = n → ∀ i < p,
      (beNat zs / 2 ^ (8 * n - p)).testBit (p - 1 - i) = bitAt zs i := by
    rintro zs rfl i hi
    have hpos : p - 1 - i + (8 * zs.length - p) = 8 * zs.length - 1 - i := by omega
    rw [Nat.testBit_div_two_pow, hpos, testBit_beNat (by omega)]
  have hhigh : ∀ {zs : List UInt8}, zs.length = n → ∀ j, p ≤ j →
      (beNat zs / 2 ^ (8 * n - p)).testBit j = false := by
    rintro zs rfl j hj
    rw [Nat.testBit_div_two_pow]
    apply Nat.testBit_lt_two_pow
    exact (beNat_lt zs).trans_le (Nat.pow_le_pow_right (by decide) (by omega))
  constructor
  · intro heq i hi
    rw [← hbit hx i hi, ← hbit hy i hi, heq]
  · intro h
    apply Nat.eq_of_testBit_eq
    intro j
    by_cases hj : j < p
    · have hx' := hbit hx (p - 1 - j) (by omega)
      have hy' := hbit hy (p - 1 - j) (by omega)
      have hback : p - 1 - (p - 1 - j) = j := by omega
      rw [hback] at hx' hy'
      rw [hx', hy', h _ (by omega)]
    · rw [hhigh hx j (by omega), hhigh hy j (by omega)]

end Marlin.Library
