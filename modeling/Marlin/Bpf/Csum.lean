import Mathlib.Algebra.Order.BigOperators.Group.List
import Mathlib.Algebra.Order.Ring.Nat
import Marlin.Bpf.Decap

/-!
# The two checksums of `csum.h`

`marlin_csum_words` adds a buffer's words in network order and `marlin_csum_fold` swaps
the result back; `marlin_ipv4_csum` adds the words as the host loads them and swaps
nothing.  One's-complement addition does not see the difference.
-/

namespace Marlin

open Marlin.Library

/-! ## The reference -/

def csumWord (buf : List UInt8) (idx : Nat) : UInt32 :=
  ((buf.getD idx 0).toUInt32 <<< 8) ||| (buf.getD (idx + 1) 0).toUInt32

def marlinCsumWords (buf : List UInt8) (len : Nat) (sum : UInt32) : UInt32 :=
  let sum := (List.range (len / 2)).foldl (fun sum i => sum + csumWord buf (2 * i)) sum
  if len % 2 ≠ 0 then sum + ((buf.getD (len - 1) 0).toUInt32 <<< 8) else sum

def csumCarry (sum : UInt32) : UInt32 := (sum &&& (0xffff : UInt32)) + (sum >>> 16)

def marlinCsumFold (sum : UInt32) : Be16 :=
  Be16.ofNat (~~~csumCarry (csumCarry sum)).toNat

theorem csumCarry_toNat (sum : UInt32) : (csumCarry sum).toNat = carryFold sum.toNat := by
  have hlow : (sum &&& 0xffff).toNat = sum.toNat % 65536 := by
    rw [UInt32.toNat_and]
    exact Nat.and_two_pow_sub_one_eq_mod sum.toNat 16
  have hhigh : (sum >>> 16).toNat = sum.toNat / 65536 := by
    rw [UInt32.toNat_shiftRight]
    exact Nat.shiftRight_eq_div_pow sum.toNat 16
  have hsum := sum.toNat_lt
  rw [csumCarry, UInt32.toNat_add, hlow, hhigh, carryFold]
  omega

theorem marlinCsumFold_eq (sum : UInt32) :
    marlinCsumFold sum = Be16.ofNat (65535 - carryFold (carryFold sum.toNat)) := by
  have hlt := carryFold_carryFold_lt sum.toNat_lt
  have hsize : UInt32.size = 2 ^ 32 := rfl
  have hnot : (~~~csumCarry (csumCarry sum)).toNat =
      2 ^ 32 - 1 - carryFold (carryFold sum.toNat) := by
    rw [UInt32.toNat_not, csumCarry_toNat, csumCarry_toNat, hsize]
  rw [marlinCsumFold, hnot]
  generalize carryFold (carryFold sum.toNat) = folded at hlt ⊢
  simp only [Be16.ofNat, Be16.mk.injEq, ← UInt8.toNat_inj, UInt8.toNat_ofNat']
  omega

theorem csumWord_toNat (buf : List UInt8) (idx : Nat) :
    (csumWord buf idx).toNat = (buf.getD idx 0).toNat * 256 + (buf.getD (idx + 1) 0).toNat := by
  have hhi := (buf.getD idx 0).toNat_lt
  have hlo := (buf.getD (idx + 1) 0).toNat_lt
  have hshift : ((buf.getD idx 0).toUInt32 <<< 8).toNat = (buf.getD idx 0).toNat <<< 8 := by
    rw [UInt32.toNat_shiftLeft, UInt8.toNat_toUInt32]
    apply Nat.mod_eq_of_lt
    change (buf.getD idx 0).toNat <<< 8 < 2 ^ 32
    rw [Nat.shiftLeft_eq]
    omega
  rw [csumWord, UInt32.toNat_or, hshift, UInt8.toNat_toUInt32,
    ← Nat.shiftLeft_add_eq_or_of_lt (by omega), Nat.shiftLeft_eq]

/-! ## Sums of words -/

theorem beWords_append {a b : List UInt8} (h : a.length % 2 = 0) :
    beWords (a ++ b) = beWords a ++ beWords b := by
  induction a using beWords.induct with
  | case1 hi lo rest ih =>
      simp only [List.length_cons] at h
      rw [List.cons_append, List.cons_append, beWords, beWords, List.cons_append,
        ih (by omega)]
  | case2 hi => simp at h
  | case3 => rfl

theorem beWords_take_succ {buf : List UInt8} {n : Nat} (h : 2 * (n + 1) ≤ buf.length) :
    beWords (buf.take (2 * (n + 1))) = beWords (buf.take (2 * n)) ++
      [(buf.getD (2 * n) 0).toNat * 256 + (buf.getD (2 * n + 1) 0).toNat] := by
  have hpair : buf.take (2 * (n + 1)) =
      buf.take (2 * n) ++ [buf.getD (2 * n) 0, buf.getD (2 * n + 1) 0] := by
    have h0 : 2 * n < buf.length := by omega
    have h1 : 2 * n + 1 < buf.length := by omega
    rw [show 2 * (n + 1) = 2 * n + 1 + 1 by omega, List.take_succ_eq_append_getElem h1,
      List.take_succ_eq_append_getElem h0]
    rw [List.getD_eq_getElem?_getD, List.getD_eq_getElem?_getD, List.getElem?_eq_getElem h0,
      List.getElem?_eq_getElem h1, List.append_assoc]
    rfl
  rw [hpair, beWords_append]
  · rfl
  · rw [List.length_take]
    omega

theorem marlinCsumWords_toNat {buf : List UInt8} {len : Nat} (hlen : len ≤ buf.length)
    (heven : len % 2 = 0) (sum : UInt32) :
    (marlinCsumWords buf len sum).toNat =
      (sum.toNat + (beWords (buf.take len)).sum) % 2 ^ 32 := by
  obtain ⟨n, rfl⟩ : ∃ n, len = 2 * n := ⟨len / 2, by omega⟩
  have hodd : ¬2 * n % 2 ≠ 0 := by omega
  rw [marlinCsumWords]
  simp only [hodd, if_false, Nat.mul_div_cancel_left n (by decide : 0 < 2)]
  clear heven hodd
  induction n with
  | zero =>
      have hsum := sum.toNat_lt
      simp [beWords]
  | succ n ih =>
      rw [List.range_succ, List.foldl_append, List.foldl_cons, List.foldl_nil,
        UInt32.toNat_add, ih (by omega), csumWord_toNat, beWords_take_succ hlen,
        List.sum_append, List.sum_singleton]
      omega

/-! ## The header checksum -/

/-- The sum of the reference is the host's sum with the bytes of its words exchanged. -/
theorem carryFold_hostSum (iph : Iphdr) :
    byteSwap (carryFold (carryFold (hostSum iph))) =
      carryFold (carryFold (marlinCsumWords { iph with check := 0 }.bytes 20 0).toNat) := by
  have hwords : (marlinCsumWords { iph with check := 0 }.bytes 20 0).toNat =
      (beWords { iph with check := 0 }.bytes).sum % 2 ^ 32 := by
    rw [marlinCsumWords_toNat (Nat.le_of_eq (Iphdr.length_bytes _).symm) (by decide),
      List.take_of_length_le (Nat.le_of_eq (Iphdr.length_bytes _))]
    simp
  have hlt : (beWords { iph with check := 0 }.bytes).sum < 2 ^ 32 := by
    have hle := List.sum_le_card_nsmul _ _ (beWords_le { iph with check := 0 }.bytes)
    have hcount : (beWords { iph with check := 0 }.bytes).length = 10 := rfl
    rw [hcount] at hle
    have hbound : (10 : Nat) • 0xffff = 655350 := rfl
    omega
  have hcheck : (0 : Be16).b0.toNat + (0 : Be16).b1.toNat * 256 = 0 := rfl
  have hmod : (beWords { iph with check := 0 }.bytes).sum % 65535 = 256 * hostSum iph % 65535 := by
    rw [sum_beWords, hostSum_check, hcheck, Nat.add_zero]
  have hzero : (beWords { iph with check := 0 }.bytes).sum = 0 ↔ hostSum iph = 0 := by
    rw [sum_beWords_eq_zero, hostSum_check, hcheck, Nat.add_zero]
  rw [hwords, Nat.mod_eq_of_lt hlt]
  exact byteSwap_carryFold (hostSum_lt iph) hlt hmod.symm hzero.symm

/-- Both checksums store the same bytes, the header verifies with them, and two folds of a
sum leave no carry. -/
theorem marlinIpv4Csum_eq :
    (∀ iph : Iphdr,
      marlinIpv4Csum iph =
          marlinCsumFold (marlinCsumWords { iph with check := 0 }.bytes 20 0) ∧
        onesSum (beWords { iph with check := marlinIpv4Csum iph }.bytes) = 0xffff) ∧
      ∀ sum : UInt32, csumCarry (csumCarry sum) >>> 16 = 0 := by
  refine ⟨fun iph => ⟨?_, onesSum_marlinIpv4Csum iph⟩, fun sum => ?_⟩
  · have hfold := carryFold_carryFold_lt (hostSum_lt iph)
    have hnative := marlinIpv4Csum_native iph
    have hswap := byteSwap_complement hfold
    rw [marlinCsumFold_eq, ← carryFold_hostSum, ← hswap, ← hnative]
    generalize marlinIpv4Csum iph = check
    have h0 := check.b0.toNat_lt
    have h1 := check.b1.toNat_lt
    have hbytes : byteSwap (check.b0.toNat + check.b1.toNat * 256) =
        check.b0.toNat * 256 + check.b1.toNat := by
      simp only [byteSwap]
      omega
    rw [hbytes]
    obtain ⟨b0, b1⟩ := check
    simp only [Be16.ofNat, Be16.mk.injEq, ← UInt8.toNat_inj, UInt8.toNat_ofNat'] at h0 h1 ⊢
    omega
  · have hlt := carryFold_carryFold_lt sum.toNat_lt
    apply UInt32.toNat_inj.mp
    rw [UInt32.toNat_shiftRight, csumCarry_toNat, csumCarry_toNat]
    exact (Nat.shiftRight_eq_div_pow _ 16).trans (Nat.div_eq_of_lt hlt)

end Marlin
