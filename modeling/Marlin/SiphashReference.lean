import Marlin.Library.SipHash
import Marlin.Siphash

/-!
# Both transcriptions compute SipHash-2-4

The two transcriptions perform one round in the reference's steps, in another
order, and read each word as the reference does; on whole blocks their tail is the
reference's last word.
-/

namespace Marlin

open Marlin.Library

def SipState.reference (s : SipState) : SipHash.State :=
  ⟨s.v0.toBitVec, s.v1.toBitVec, s.v2.toBitVec, s.v3.toBitVec⟩

theorem rotl_toBitVec (x : UInt64) {b : UInt64} (hpos : 0 < b) (hlt : b < 64) :
    (rotl x b).toBitVec = x.toBitVec.rotateLeft b.toNat := by
  have hposNat : 0 < b.toNat := hpos
  have hltNat : b.toNat < 64 := hlt
  have hleft : (b.toBitVec % 64).toNat = b.toNat % 64 := rfl
  have hright : ((64 - b).toBitVec % 64).toNat = 64 - b.toNat % 64 := by
    change (64 - b).toNat % 64 = _
    rw [UInt64.toNat_sub_of_le _ _ (UInt64.le_of_lt hlt)]
    change (64 - b.toNat) % 64 = _
    omega
  rw [rotl, UInt64.toBitVec_or, UInt64.toBitVec_shiftLeft, UInt64.toBitVec_shiftRight,
    BitVec.rotateLeft_def, BitVec.shiftLeft_eq', BitVec.ushiftRight_eq', hleft, hright]

theorem siphashRound_reference (s : SipState) :
    (siphashRound s).reference = SipHash.round s.reference := by
  have h13 (x : UInt64) := rotl_toBitVec x (b := 13) (by decide) (by decide)
  have h16 (x : UInt64) := rotl_toBitVec x (b := 16) (by decide) (by decide)
  have h17 (x : UInt64) := rotl_toBitVec x (b := 17) (by decide) (by decide)
  have h21 (x : UInt64) := rotl_toBitVec x (b := 21) (by decide) (by decide)
  have h32 (x : UInt64) := rotl_toBitVec x (b := 32) (by decide) (by decide)
  simp only [siphashRound, SipState.reference, SipHash.round, UInt64.toBitVec_add,
    UInt64.toBitVec_xor, h13, h16, h17, h21, h32]
  rfl

/-! ## Words -/

theorem toNat_or_shift {acc : UInt64} {bytes : List UInt8} (b : UInt8) {k : UInt64}
    (hacc : acc.toNat = SipHash.leNat bytes) (hk : k.toNat = 8 * bytes.length)
    (hlt : k.toNat < 64) :
    (acc ||| (b.toUInt64 <<< k)).toNat = SipHash.leNat (bytes ++ [b]) := by
  have hbelow := SipHash.leNat_lt bytes
  have hpow : 2 ^ (8 * bytes.length) ≤ 2 ^ 56 := Nat.pow_le_pow_right (by decide) (by omega)
  have hbyte := b.toNat_lt
  have hshift : (b.toUInt64 <<< k).toNat = b.toNat <<< (8 * bytes.length) := by
    rw [UInt64.toNat_shiftLeft, UInt8.toNat_toUInt64, hk,
      Nat.mod_eq_of_lt (by omega : 8 * bytes.length < 64), Nat.shiftLeft_eq]
    apply Nat.mod_eq_of_lt
    calc b.toNat * 2 ^ (8 * bytes.length) ≤ 255 * 2 ^ 56 := Nat.mul_le_mul (by omega) hpow
      _ < 2 ^ 64 := by decide
  have hlast : SipHash.leNat [b] = b.toNat := Nat.add_zero _
  rw [UInt64.toNat_or, hshift, hacc, Nat.or_comm, ← Nat.shiftLeft_add_eq_or_of_lt hbelow,
    SipHash.leNat_append, hlast, Nat.shiftLeft_eq, Nat.add_comm]

theorem le64_toBitVec {buf : List UInt8} {off : Nat} (h : off + 8 ≤ buf.length) :
    (le64 buf off).toBitVec = SipHash.leWord ((buf.drop off).take 8) := by
  obtain ⟨b0, b1, b2, b3, b4, b5, b6, b7, rest, hdrop⟩ :
      ∃ b0 b1 b2 b3 b4 b5 b6 b7 rest,
        buf.drop off = b0 :: b1 :: b2 :: b3 :: b4 :: b5 :: b6 :: b7 :: rest := by
    have hlen : 8 ≤ (buf.drop off).length := by
      rw [List.length_drop]
      omega
    match buf.drop off, hlen with
    | b0 :: b1 :: b2 :: b3 :: b4 :: b5 :: b6 :: b7 :: rest, _ =>
        exact ⟨b0, b1, b2, b3, b4, b5, b6, b7, rest, rfl⟩
  have hbyte (i : Nat) : buf.getD (off + i) 0 = (buf.drop off).getD i 0 := by
    rw [List.getD_eq_getElem?_getD, List.getD_eq_getElem?_getD, List.getElem?_drop]
  have h0 : b0.toUInt64.toNat = SipHash.leNat [b0] := UInt8.toNat_toUInt64 b0
  have h1 := toNat_or_shift b1 (k := 8) h0 rfl (by decide)
  have h2 := toNat_or_shift b2 (k := 16) h1 rfl (by decide)
  have h3 := toNat_or_shift b3 (k := 24) h2 rfl (by decide)
  have h4 := toNat_or_shift b4 (k := 32) h3 rfl (by decide)
  have h5 := toNat_or_shift b5 (k := 40) h4 rfl (by decide)
  have h6 := toNat_or_shift b6 (k := 48) h5 rfl (by decide)
  have h7 := toNat_or_shift b7 (k := 56) h6 rfl (by decide)
  have hread : le64 buf off = b0.toUInt64 ||| (b1.toUInt64 <<< 8) ||| (b2.toUInt64 <<< 16) |||
      (b3.toUInt64 <<< 24) ||| (b4.toUInt64 <<< 32) ||| (b5.toUInt64 <<< 40) |||
      (b6.toUInt64 <<< 48) ||| (b7.toUInt64 <<< 56) := by
    simp only [le64, hbyte, hdrop]
    rfl
  rw [hread, hdrop, SipHash.leWord]
  apply BitVec.eq_of_toNat_eq
  rw [BitVec.toNat_ofNat]
  change UInt64.toNat _ = _
  rw [h7]
  exact (Nat.mod_eq_of_lt (SipHash.leNat_lt [b0, b1, b2, b3, b4, b5, b6, b7])).symm

/-! ## The phases -/

theorem sipInit_reference (key : Key16) :
    (sipInit key).reference = SipHash.initial key.toList := by
  have hlen : key.toList.length = 16 := key.length_toList
  have h0 := le64_toBitVec (show 0 + 8 ≤ key.toList.length by omega)
  have h8 := le64_toBitVec (show 8 + 8 ≤ key.toList.length by omega)
  rw [List.drop_zero] at h0
  rw [SipHash.initial, ← h0, ← h8]
  rfl

theorem sipBlock_reference (s : SipState) (word : UInt64) :
    (sipBlock s word).reference = SipHash.absorb 2 s.reference word.toBitVec := by
  have h2 (s : SipState) :
      (siphashRound (siphashRound s)).reference = SipHash.round^[2] s.reference := by
    rw [siphashRound_reference, siphashRound_reference]
    rfl
  have hrounds := h2 { s with v3 := s.v3 ^^^ word }
  have hinput : SipState.reference { s with v3 := s.v3 ^^^ word } =
      { s.reference with v3 := s.reference.v3 ^^^ word.toBitVec } := rfl
  rw [SipHash.absorb, ← hinput, ← hrounds]
  rfl

theorem sipFinish_reference (s : SipState) :
    (sipFinish s).toBitVec = SipHash.finish 4 s.reference := by
  have h4 (s : SipState) : (siphashRound (siphashRound (siphashRound (siphashRound s)))).reference =
      SipHash.round^[4] s.reference := by
    rw [siphashRound_reference, siphashRound_reference, siphashRound_reference,
      siphashRound_reference]
    rfl
  have hrounds := h4 { s with v2 := s.v2 ^^^ 0xff }
  have hinput : SipState.reference { s with v2 := s.v2 ^^^ 0xff } =
      { s.reference with v2 := s.reference.v2 ^^^ 0xff } := rfl
  rw [SipHash.finish, ← hinput, ← hrounds]
  rfl

theorem blocks_reference {data : List UInt8} {len n : Nat} (hlen : len ≤ data.length)
    (hn : n * 8 ≤ len) (s : SipState) :
    ((List.range n).foldl (fun s i => sipBlock s (le64 data (i * 8))) s).reference =
      ((List.range n).map fun i => SipHash.leWord (((data.take len).drop (i * 8)).take 8)).foldl
        (SipHash.absorb 2) s.reference := by
  induction n with
  | zero => rfl
  | succ n ih =>
      have hword : (le64 data (n * 8)).toBitVec =
          SipHash.leWord (((data.take len).drop (n * 8)).take 8) := by
        rw [le64_toBitVec (by omega), List.drop_take, List.take_take,
          Nat.min_eq_left (by omega)]
      rw [List.range_succ, List.foldl_append, List.map_append, List.foldl_append, ← ih (by omega),
        List.foldl_cons, List.foldl_nil, sipBlock_reference, hword]
      rfl

theorem tail_reference (len : Nat) :
    (UInt64.ofNat len <<< 56).toBitVec = BitVec.ofNat 64 (len % 256 * 2 ^ 56) := by
  apply BitVec.eq_of_toNat_eq
  change (UInt64.ofNat len <<< 56).toNat = _
  have hcount : (56 : UInt64).toNat % 64 = 56 := rfl
  rw [UInt64.toNat_shiftLeft, hcount, UInt64.toNat_ofNat', Nat.shiftLeft_eq, BitVec.toNat_ofNat]
  omega

/-! ## The digests -/

theorem marlindSiphash_reference {data : List UInt8} {len : Nat} (hlen : len ≤ data.length)
    (hdvd : 8 ∣ len) (key : Key16) :
    (marlindSiphash data len key).toBitVec =
      SipHash.sipHash 2 4 key.toList (data.take len) := by
  have hlength : (data.take len).length = len := by
    rw [List.length_take, Nat.min_eq_left hlen]
  have hwords := SipHash.words_of_dvd (hlength.symm ▸ hdvd)
  rw [hlength] at hwords
  rw [marlindSiphash, sipFinish_reference, sipBlock_reference, tail_reference,
    blocks_reference hlen (Nat.div_mul_le_self len 8), sipInit_reference, SipHash.sipHash, hwords,
    List.foldl_append]
  rfl

theorem marlinSipround_eq (s : SipState) : marlinSipround s = siphashRound s := rfl

theorem marlinSiphashLe64_eq (buf : List UInt8) (off : Nat) :
    marlinSiphashLe64 buf off = le64 buf off := rfl

theorem marlinSiphashBlocks_eq (data : List UInt8) (len : Nat) (key : Key16) :
    marlinSiphashBlocks data len key = marlindSiphash data len key := by
  simp only [marlinSiphashBlocks, marlinSipround_eq, marlinSiphashLe64_eq]
  rfl

/-- On whole blocks both transcriptions return the digest of SipHash-2-4. -/
theorem siphash_transcriptions {data : List UInt8} {len : Nat} (hlen : len ≤ data.length)
    (hdvd : 8 ∣ len) (key : Key16) :
    marlindSiphash data len key = marlinSiphashBlocks data len key ∧
      (marlinSiphashBlocks data len key).toBitVec =
        SipHash.sipHash 2 4 key.toList (data.take len) := by
  rw [marlinSiphashBlocks_eq]
  exact ⟨rfl, marlindSiphash_reference hlen hdvd key⟩

theorem siphash_transcriptions_applies :
    marlindSiphash (List.replicate 20 7) 16 (Vector.replicate 16 1) =
        marlinSiphashBlocks (List.replicate 20 7) 16 (Vector.replicate 16 1) ∧
      (marlinSiphashBlocks (List.replicate 20 7) 16 (Vector.replicate 16 1)).toBitVec =
        SipHash.sipHash 2 4 (Vector.replicate 16 1).toList ((List.replicate 20 7).take 16) :=
  siphash_transcriptions (by decide) (by decide) _

end Marlin
