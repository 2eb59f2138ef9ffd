import Marlin.Filtering
import Marlin.Library.BitPrefix

/-!
# Prefixes of the rules, as sets of addresses

The checks of `check_acl` that look inside a prefix: bits beyond its length, and a
prefix that covers another one.  Both are said of the bits of the addresses, and a
prefix covers another exactly when every source of the one is a source of the other.
-/

namespace Marlin

open Marlin.Library

def AclFamily.bits : AclFamily → Nat
  | .v4 => 32
  | .v6 => 128

theorem getMsbD_prefixMask :
    ∀ keep < 9, ∀ j < 8, (prefixMask keep).toBitVec.getMsbD j = decide (j < keep) := by
  decide

theorem Be32.length_bytes (v : Be32) : v.bytes.length = 4 := rfl

theorem Addr.length_bytes (addr : Addr) : addr.bytes.length = 16 := rfl

/-! ## Host bits -/

theorem hostByte_iff (x : UInt8) (base prefixlen : Nat) :
    (if base ≥ prefixlen then decide (x ≠ 0)
      else if base + 8 > prefixlen then
        decide (x &&& ~~~prefixMask (prefixlen - base) ≠ 0)
      else false) = true ↔
      ∃ j < 8, prefixlen ≤ base + j ∧ x.toBitVec.getMsbD j = true := by
  have hne (y : UInt8) : y ≠ 0 ↔ ∃ j < 8, y.toBitVec.getMsbD j = true := by
    rw [ne_eq, byte_eq_iff]
    simp
  split
  · rename_i hbase
    rw [decide_eq_true_iff, hne]
    refine exists_congr fun j => and_congr_right fun _ => ?_
    exact ⟨fun hbit => ⟨by omega, hbit⟩, And.right⟩
  · split
    · rename_i hbase hend
      rw [decide_eq_true_iff, hne]
      refine exists_congr fun j => and_congr_right fun hj => ?_
      have hmask := getMsbD_prefixMask (prefixlen - base) (by omega) j hj
      rw [UInt8.toBitVec_and, UInt8.toBitVec_not, BitVec.getMsbD_and, BitVec.getMsbD_not, hmask]
      simp only [hj, decide_true, Bool.true_and, Bool.and_eq_true, Bool.not_eq_true',
        decide_eq_false_iff_not]
      constructor
      · rintro ⟨hbit, hkeep⟩
        exact ⟨by omega, hbit⟩
      · rintro ⟨hlen, hbit⟩
        exact ⟨hbit, by omega⟩
    · rename_i hbase hend
      refine ⟨fun h => absurd h Bool.false_ne_true, ?_⟩
      rintro ⟨j, hj, hlen, -⟩
      omega

theorem confCidrHostBitsSet_iff (addr : Addr) (prefixlen : Nat) (isV6 : Bool) :
    confCidrHostBitsSet addr prefixlen isV6 = true ↔
      ∃ i, prefixlen ≤ i ∧ (i < if isV6 then 128 else 32) ∧ bitAt addr.bytes i = true := by
  have hwidth : (if isV6 then 128 else 32) = 8 * (if isV6 then 16 else 4) := by
    cases isV6 <;> rfl
  rw [confCidrHostBitsSet, List.any_eq_true, hwidth]
  generalize (if isV6 then 16 else 4) = width
  constructor
  · rintro ⟨byte, hbyte, hfound⟩
    rw [List.mem_range] at hbyte
    obtain ⟨j, hj, hlen, hbit⟩ := (hostByte_iff _ _ _).mp hfound
    exact ⟨byte * 8 + j, hlen, by omega, (bitAt_mul_add _ _ hj).trans hbit⟩
  · rintro ⟨i, hlen, hi, hbit⟩
    refine ⟨i / 8, List.mem_range.mpr (by omega), (hostByte_iff _ _ _).mpr ?_⟩
    exact ⟨i % 8, Nat.mod_lt i (by decide), by omega, hbit⟩

/-! ## Covering -/

theorem coversByte_iff (x y : UInt8) (base prefixlen : Nat) :
    (if base ≥ prefixlen then true
      else if base + 8 ≤ prefixlen then x == y
      else x &&& prefixMask (prefixlen - base) == y &&& prefixMask (prefixlen - base)) = true ↔
      ∀ j < 8, base + j < prefixlen → x.toBitVec.getMsbD j = y.toBitVec.getMsbD j := by
  split
  · rename_i hbase
    exact ⟨fun _ j _ hlen => by omega, fun _ => rfl⟩
  · split
    · rename_i hbase hend
      rw [beq_iff_eq, byte_eq_iff]
      exact forall₂_congr fun j hj => ⟨fun heq _ => heq, fun h => h (by omega)⟩
    · rename_i hbase hend
      rw [beq_iff_eq, byte_eq_iff]
      refine forall₂_congr fun j hj => ?_
      have hmask := getMsbD_prefixMask (prefixlen - base) (by omega) j hj
      rw [UInt8.toBitVec_and, UInt8.toBitVec_and, BitVec.getMsbD_and, BitVec.getMsbD_and, hmask]
      by_cases hkeep : j < prefixlen - base
      · have hlen : base + j < prefixlen := by omega
        simp [hkeep, hlen]
      · have hlen : ¬base + j < prefixlen := by omega
        simp [hkeep, hlen]

theorem prefixCovers_iff_bits {outer : ConfAclEntry} {width : Nat}
    (houter : outer.prefixlen ≤ width * 8) (inner : ConfAclEntry) :
    prefixCovers outer inner width = true ↔
      outer.prefixlen ≤ inner.prefixlen ∧
        ∀ i < outer.prefixlen, bitAt inner.addr.bytes i = bitAt outer.addr.bytes i := by
  rw [prefixCovers]
  split
  · rename_i hlonger
    exact ⟨fun h => absurd h Bool.false_ne_true, fun h => absurd h.1 (by omega)⟩
  · rename_i hshorter
    rw [List.all_eq_true]
    constructor
    · intro h
      refine ⟨by omega, fun i hi => ?_⟩
      have hbyte := (coversByte_iff _ _ _ _).mp (h (i / 8) (List.mem_range.mpr (by omega)))
      exact (hbyte (i % 8) (Nat.mod_lt i (by decide)) (by omega)).symm
    · rintro ⟨-, h⟩ byte -
      refine (coversByte_iff _ _ _ _).mpr fun j hj hlen => ?_
      rw [← bitAt_mul_add _ _ hj, ← bitAt_mul_add _ _ hj]
      exact (h _ hlen).symm

/-! ## Sources -/

theorem Be32.toNat_eq_beNat (v : Be32) : v.toNat = beNat v.bytes := by
  simp only [Be32.toNat, Be32.bytes, beNat, List.length_cons, List.length_nil]
  omega

theorem Addr.toNat_eq_beNat (addr : Addr) : addr.toNat = beNat addr.bytes := by
  simp only [Addr.toNat, Be32.toNat, Addr.bytes, Be32.bytes, List.cons_append, List.nil_append,
    beNat, List.length_cons, List.length_nil]
  omega

theorem Addr.bitAt_w0 (addr : Addr) {i : Nat} (h : i < 32) :
    bitAt addr.w0.bytes i = bitAt addr.bytes i := by
  have hbyte : addr.bytes.getD (i / 8) 0 = addr.w0.bytes.getD (i / 8) 0 := by
    have hlt : i / 8 < addr.w0.bytes.length := by
      change i / 8 < 4
      omega
    rw [Addr.bytes, List.append_assoc, List.append_assoc, List.getD_append _ _ _ _ hlt]
  rw [bitAt, bitAt, hbyte]

/-- The sources of a rule are those that share the first bits of its address. -/
theorem ConfAclEntry.covers_iff_mem {entry : ConfAclEntry} {family : AclFamily}
    (hlen : entry.prefixlen ≤ family.bits) (src : Addr) :
    entry.covers src family = true ↔
      bitAt src.bytes ∈ cylinder (bitAt entry.addr.bytes) entry.prefixlen := by
  have hmem : bitAt src.bytes ∈ cylinder (bitAt entry.addr.bytes) entry.prefixlen ↔
      ∀ i < entry.prefixlen, bitAt entry.addr.bytes i = bitAt src.bytes i :=
    forall₂_congr fun i _ => eq_comm
  rw [hmem]
  cases family with
  | v4 =>
      have hlow : ∀ i < entry.prefixlen, i < 32 := fun i hi => by
        simp only [AclFamily.bits] at hlen
        omega
      have hbits := (beNat_div_eq_iff (Be32.length_bytes entry.addr.w0)
        (Be32.length_bytes src.w0) hlen).trans
          (forall₂_congr fun i hi => by
            rw [Addr.bitAt_w0 _ (hlow i hi), Addr.bitAt_w0 _ (hlow i hi)])
      rw [ConfAclEntry.covers, prefixMatches, beq_iff_eq, Be32.toNat_eq_beNat,
        Be32.toNat_eq_beNat]
      exact hbits
  | v6 =>
      rw [ConfAclEntry.covers, prefixMatches, beq_iff_eq, Addr.toNat_eq_beNat,
        Addr.toNat_eq_beNat]
      exact beNat_div_eq_iff (Addr.length_bytes _) (Addr.length_bytes _) hlen

def ConfAclEntry.Within (rule cover : ConfAclEntry) (family : AclFamily) : Prop :=
  ∀ src, rule.covers src family = true → cover.covers src family = true

theorem Addr.bytes_ofBytes {bytes : List UInt8} (h : bytes.length = 16) :
    (Addr.ofBytes bytes).bytes = bytes := by
  match bytes, h with
  | [_, _, _, _, _, _, _, _, _, _, _, _, _, _, _, _], _ => rfl

theorem ConfAclEntry.within_iff_subset {rule cover : ConfAclEntry} {family : AclFamily}
    (hrule : rule.prefixlen ≤ family.bits) (hcover : cover.prefixlen ≤ family.bits) :
    rule.Within cover family ↔
      cylinder (bitAt rule.addr.bytes) rule.prefixlen ⊆
        cylinder (bitAt cover.addr.bytes) cover.prefixlen := by
  constructor
  · intro hwithin x hx
    -- An address whose bits begin like the sequence.
    obtain ⟨bytes, hlen, hbits⟩ := exists_bitAt x 16
    have hsrc : ∀ i < family.bits, bitAt (Addr.ofBytes bytes).bytes i = x i := fun i hi => by
      rw [Addr.bytes_ofBytes hlen, hbits i (by cases family <;> simp [AclFamily.bits] at hi <;> omega)]
    have hin : rule.covers (Addr.ofBytes bytes) family = true :=
      (covers_iff_mem hrule _).mpr fun i hi => (hsrc i (by omega)).trans (hx i hi)
    intro i hi
    rw [← hsrc i (by omega), (covers_iff_mem hcover _).mp (hwithin _ hin) i hi]
  · intro hsub src hsrc
    exact (covers_iff_mem hcover src).mpr (hsub ((covers_iff_mem hrule src).mp hsrc))

theorem prefixCovers_iff_within {rule cover : ConfAclEntry} {family : AclFamily}
    (hrule : rule.prefixlen ≤ family.bits) (hcover : cover.prefixlen ≤ family.bits) :
    prefixCovers cover rule (family.bits / 8) = true ↔ rule.Within cover family := by
  have hwidth : cover.prefixlen ≤ family.bits / 8 * 8 := by
    cases family <;> exact hcover
  rw [prefixCovers_iff_bits hwidth, ConfAclEntry.within_iff_subset hrule hcover,
    cylinder_subset_iff]

/-! ## Dead rules -/

def AclFamily.name : AclFamily → String
  | .v4 => "v4"
  | .v6 => "v6"

open Classical in
/-- A warning for each block rule within an allow rule, about the first such rule. -/
noncomputable def ConfAcl.deadRules (acl : ConfAcl) (family : AclFamily) : List ConfReport :=
  (acl.list .block family).zipIdx.flatMap fun rule =>
    match (acl.list .allow family).findIdx? fun cover => decide (rule.1.Within cover family) with
    | none => []
    | some j =>
        [.warning s!"acl.block[{rule.2}] ({family.name}) is wholly covered by acl.allow[{j}], and therefore dead"]

theorem findIdx?_congr_mem {α : Type*} {xs : List α} {p q : α → Bool}
    (h : ∀ x ∈ xs, p x = q x) : xs.findIdx? p = xs.findIdx? q := by
  induction xs with
  | nil => rfl
  | cons x xs ih =>
      rw [List.findIdx?_cons, List.findIdx?_cons, h x List.mem_cons_self,
        ih fun y hy => h y (List.mem_cons_of_mem x hy)]

open Classical in
theorem checkDeadRules_eq {acl : ConfAcl} {family : AclFamily}
    (hlen : ∀ list, ∀ entry ∈ acl.list list family, entry.prefixlen ≤ family.bits) :
    checkDeadRules (acl.list .allow family) (acl.list .block family) (family.bits / 8)
      family.name = acl.deadRules family := by
  rw [checkDeadRules, ConfAcl.deadRules]
  apply List.flatMap_congr
  rintro ⟨rule, i⟩ hrule
  have hmem : rule ∈ acl.list .block family := (List.mem_zipIdx' hrule).2 ▸ List.getElem_mem _
  have hfirst : (acl.list .allow family).findIdx?
      (fun cover => prefixCovers cover rule (family.bits / 8)) =
        (acl.list .allow family).findIdx? fun cover => decide (rule.Within cover family) := by
    refine findIdx?_congr_mem fun cover hcover => ?_
    rw [Bool.eq_iff_iff, decide_eq_true_iff]
    exact prefixCovers_iff_within (hlen .block rule hmem) (hlen .allow cover hcover)
  exact hfirst ▸ rfl

/-- The checks inside a prefix say of its bits, of the sources it covers and of the rules of a
file what they are for. -/
theorem checkAcl_prefixes (acl : ConfAcl) (family : AclFamily) (outer inner : ConfAclEntry)
    (hlen : ∀ family list, ∀ entry ∈ acl.list list family, entry.prefixlen ≤ family.bits)
    (houter : outer.prefixlen ≤ family.bits) (hinner : inner.prefixlen ≤ family.bits) :
    (∀ addr prefixlen isV6, confCidrHostBitsSet addr prefixlen isV6 = true ↔
        ∃ i, prefixlen ≤ i ∧ (i < if isV6 then 128 else 32) ∧ bitAt addr.bytes i = true) ∧
      (prefixCovers outer inner (family.bits / 8) = true ↔
        ∀ src, inner.covers src family = true → outer.covers src family = true) ∧
      checkAclDeadRules acl = acl.deadRules .v4 ++ acl.deadRules .v6 := by
  refine ⟨confCidrHostBitsSet_iff, prefixCovers_iff_within hinner houter, ?_⟩
  rw [← checkDeadRules_eq (hlen .v4), ← checkDeadRules_eq (hlen .v6)]
  rfl

namespace Sample

def wideRule : ConfAclEntry := ⟨8, ⟨⟨10, 0, 0, 0⟩, 0, 0, 0⟩⟩

def narrowRule : ConfAclEntry := ⟨9, ⟨⟨10, 128, 0, 0⟩, 0, 0, 0⟩⟩

def coveredAcl : ConfAcl := ⟨true, [wideRule], [narrowRule], [], []⟩

end Sample

theorem checkAcl_prefixes_nested :
    (∀ addr prefixlen isV6, confCidrHostBitsSet addr prefixlen isV6 = true ↔
        ∃ i, prefixlen ≤ i ∧ (i < if isV6 then 128 else 32) ∧ bitAt addr.bytes i = true) ∧
      (prefixCovers Sample.wideRule Sample.narrowRule 4 = true ↔
        ∀ src, Sample.narrowRule.covers src .v4 = true →
          Sample.wideRule.covers src .v4 = true) ∧
      checkAclDeadRules Sample.coveredAcl =
        Sample.coveredAcl.deadRules .v4 ++ Sample.coveredAcl.deadRules .v6 := by
  refine checkAcl_prefixes Sample.coveredAcl .v4 Sample.wideRule Sample.narrowRule ?_
    (by decide) (by decide)
  intro family list
  cases family <;> cases list <;> simp [Sample.coveredAcl, ConfAcl.list] <;> decide

end Marlin
