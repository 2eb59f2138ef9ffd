import Mathlib.Data.Prod.Lex
import Mathlib.Data.List.TakeWhile
import Marlin.Marlind.ConfValue

/-!
# Version compatibility

`compat.h`: the parser of a version, which an object file brings along, the comparison
of two versions and the floor below which an object is refused.  The comparison is the
order of a key, so what holds of a linear order holds of it.
-/

namespace Marlin

/-! ## Parsing -/

def uintFieldStep (val : Nat) (ch : UInt8) : Option Nat :=
  if val > (0xffffffff - 9) / 10 then none else some ((val * 10 + digitValue ch) % 2 ^ 64)

/-- The loop of `marlind_parse_uint_field`.  The count of digits is compared with 0 only. -/
def uintFieldLoop : List UInt8 → Nat → Nat → Option (Nat × Nat × List UInt8)
  | [], val, ndigits => some (val, ndigits, [])
  | ch :: str, val, ndigits =>
      if isDigit ch then
        (uintFieldStep val ch).bind fun val => uintFieldLoop str val (ndigits + 1)
      else some (val, ndigits, ch :: str)

def marlindParseUintField (cur : List UInt8) : Option (Nat × List UInt8) :=
  (uintFieldLoop cur 0 0).bind fun (val, ndigits, str) =>
    if ndigits = 0 then none else some (val, str)

structure MarlindSemver where
  major : Nat
  minor : Nat
  patch : Nat
  prerelease : Bool
  deriving DecidableEq, Repr

def skipDot : List UInt8 → Option (List UInt8)
  | [] => none
  | ch :: cur => if ch = ascii '.' then some cur else none

def versionSuffix : List UInt8 → Option Bool
  | [] => some false
  | ch :: _ =>
      if ch = ascii '-' then some true else if ch = ascii '+' then some false else none

def marlindParseSemver (str : List UInt8) : Option MarlindSemver := do
  let (major, cur) ← marlindParseUintField str
  let cur ← skipDot cur
  let (minor, cur) ← marlindParseUintField cur
  let cur ← skipDot cur
  let (patch, cur) ← marlindParseUintField cur
  let prerelease ← versionSuffix cur
  pure ⟨major, minor, patch, prerelease⟩

/-! ## Comparing -/

inductive MarlindVercmp where
  | less
  | equal
  | greater
  | unparseable
  deriving DecidableEq, Repr

/-- `marlind_version_cmp` once both sides are parsed. -/
def semverCmp (va vb : MarlindSemver) : MarlindVercmp :=
  if va.major ≠ vb.major then if va.major < vb.major then .less else .greater
  else if va.minor ≠ vb.minor then if va.minor < vb.minor then .less else .greater
  else if va.patch ≠ vb.patch then if va.patch < vb.patch then .less else .greater
  else if va.prerelease = vb.prerelease then .equal
  else if va.prerelease then .less else .greater

def marlindVersionCmp (lhs rhs : List UInt8) : MarlindVercmp :=
  match marlindParseSemver lhs, marlindParseSemver rhs with
  | some va, some vb => semverCmp va vb
  | _, _ => .unparseable

def marlindMinBpfVersion : List UInt8 := cstr "0.0.0-dev"

inductive MarlindCompat where
  | ok
  | tooOld
  | unparseable
  deriving DecidableEq, Repr

def marlindBpfObjectSupported (version : List UInt8) : MarlindCompat :=
  match marlindVersionCmp version marlindMinBpfVersion with
  | .unparseable => .unparseable
  | .less => .tooOld
  | _ => .ok

/-! ## Fields -/

structure UintField (ds : List UInt8) : Prop where
  nonempty : ds ≠ []
  digits : ∀ ch ∈ ds, isDigit ch = true
  bounded : decimal ds ≤ 4294967289

theorem uintFieldStep_eq {val : Nat} {ch : UInt8} (h : isDigit ch = true) :
    uintFieldStep val ch =
      if val * 10 + digitValue ch ≤ 4294967289 then some (val * 10 + digitValue ch) else none := by
  have hdigit := digitValue_le h
  rw [uintFieldStep]
  by_cases hval : val > (0xffffffff - 9) / 10
  · rw [if_pos hval, if_neg (by omega)]
  · rw [if_neg hval, if_pos (by omega), Nat.mod_eq_of_lt (by omega)]

theorem foldlM_uintFieldStep {ds : List UInt8} (h : ∀ ch ∈ ds, isDigit ch = true) {val : Nat}
    (hval : val ≤ 4294967289) :
    ds.foldlM uintFieldStep val =
      if decimalFrom val ds ≤ 4294967289 then some (decimalFrom val ds) else none := by
  induction ds generalizing val with
  | nil =>
      rw [if_pos (show decimalFrom val [] ≤ 4294967289 from hval)]
      rfl
  | cons ch ds ih =>
      have hcons : decimalFrom val (ch :: ds) = decimalFrom (val * 10 + digitValue ch) ds := rfl
      have hle := le_decimalFrom (val * 10 + digitValue ch) ds
      rw [List.foldlM_cons, uintFieldStep_eq (h ch List.mem_cons_self), hcons]
      by_cases hstep : val * 10 + digitValue ch ≤ 4294967289
      · rw [if_pos hstep]
        exact ih (fun c hc => h c (List.mem_cons_of_mem ch hc)) hstep
      · rw [if_neg hstep, if_neg (by omega)]
        rfl

theorem uintFieldLoop_eq (str : List UInt8) (val ndigits : Nat) :
    uintFieldLoop str val ndigits =
      ((str.takeWhile isDigit).foldlM uintFieldStep val).map fun val =>
        (val, ndigits + (str.takeWhile isDigit).length, str.dropWhile isDigit) := by
  induction str generalizing val ndigits with
  | nil => rfl
  | cons ch str ih =>
      rw [uintFieldLoop]
      by_cases hdigit : isDigit ch = true
      · rw [if_pos hdigit, List.takeWhile_cons_of_pos hdigit, List.dropWhile_cons_of_pos hdigit,
          List.foldlM_cons, List.length_cons]
        cases uintFieldStep val ch with
        | none => rfl
        | some next =>
            rw [Option.bind_some, ih, Nat.add_right_comm, Nat.add_assoc]
            rfl
      · rw [if_neg hdigit, List.takeWhile_cons_of_neg hdigit, List.dropWhile_cons_of_neg hdigit]
        rfl

theorem marlindParseUintField_eq (str : List UInt8) :
    marlindParseUintField str =
      if str.takeWhile isDigit ≠ [] ∧ decimal (str.takeWhile isDigit) ≤ 4294967289 then
        some (decimal (str.takeWhile isDigit), str.dropWhile isDigit)
      else none := by
  have hdigits : ∀ ch ∈ str.takeWhile isDigit, isDigit ch = true := fun ch hch =>
    List.mem_takeWhile_imp hch
  rw [marlindParseUintField, uintFieldLoop_eq, foldlM_uintFieldStep hdigits (Nat.zero_le _)]
  change (Option.map _ (if decimal (str.takeWhile isDigit) ≤ 4294967289 then
    some (decimal (str.takeWhile isDigit)) else none)).bind _ = _
  by_cases hbound : decimal (str.takeWhile isDigit) ≤ 4294967289
  · by_cases hempty : str.takeWhile isDigit = []
    · simp [hempty]
    · simp [hbound, hempty]
  · simp [hbound]

theorem marlindParseUintField_append {ds rest : List UInt8} (h : UintField ds)
    (hrest : ∀ ch ∈ rest.head?, isDigit ch = false) :
    marlindParseUintField (ds ++ rest) = some (decimal ds, rest) := by
  have htake : (ds ++ rest).takeWhile isDigit = ds := by
    rw [List.takeWhile_append_of_pos h.digits]
    cases rest with
    | nil => simp
    | cons ch rest => simp [hrest ch rfl]
  have hdrop : (ds ++ rest).dropWhile isDigit = rest := by
    rw [List.dropWhile_append_of_pos h.digits]
    cases rest with
    | nil => rfl
    | cons ch rest => simp [hrest ch rfl]
  rw [marlindParseUintField_eq, htake, hdrop, if_pos ⟨h.nonempty, h.bounded⟩]

theorem marlindParseUintField_some {str rest : List UInt8} {val : Nat}
    (h : marlindParseUintField str = some (val, rest)) :
    ∃ ds, UintField ds ∧ decimal ds = val ∧ str = ds ++ rest := by
  rw [marlindParseUintField_eq] at h
  split at h
  · rename_i hfield
    cases h
    exact ⟨str.takeWhile isDigit,
      ⟨hfield.1, fun ch hch => List.mem_takeWhile_imp hch, hfield.2⟩, rfl,
      (List.takeWhile_append_dropWhile).symm⟩
  · cases h

/-! ## Well-formed versions -/

def SemverText (str : List UInt8) (v : MarlindSemver) : Prop :=
  ∃ major minor patch tail, UintField major ∧ UintField minor ∧ UintField patch ∧
    str = major ++ ascii '.' :: (minor ++ ascii '.' :: (patch ++ tail)) ∧
    (tail = [] ∨ tail.head? = some (ascii '-') ∨ tail.head? = some (ascii '+')) ∧
    v = ⟨decimal major, decimal minor, decimal patch, tail.head? == some (ascii '-')⟩

theorem skipDot_eq_some {str cur : List UInt8} :
    skipDot str = some cur ↔ str = ascii '.' :: cur := by
  cases str with
  | nil => simp [skipDot]
  | cons ch rest =>
      rw [skipDot]
      split <;> simp_all

theorem versionSuffix_eq_some {tail : List UInt8} {prerelease : Bool} :
    versionSuffix tail = some prerelease ↔
      (tail = [] ∨ tail.head? = some (ascii '-') ∨ tail.head? = some (ascii '+')) ∧
        prerelease = (tail.head? == some (ascii '-')) := by
  have hne : ascii '+' ≠ ascii '-' := by decide
  have hfalse : (ascii '+' == ascii '-') = false := by decide
  cases tail with
  | nil => simp [versionSuffix, eq_comm]
  | cons ch rest =>
      rw [versionSuffix]
      by_cases hminus : ch = ascii '-'
      · subst hminus
        simp
      · by_cases hplus : ch = ascii '+'
        · subst hplus
          simp [hne, hfalse]
        · simp [hminus, hplus]

theorem marlindParseSemver_eq_some {str : List UInt8} {v : MarlindSemver} :
    marlindParseSemver str = some v ↔ SemverText str v := by
  have hdot : isDigit (ascii '.') = false := by decide
  constructor
  · intro h
    simp only [marlindParseSemver, Option.bind_eq_bind, Option.bind_eq_some_iff, Prod.exists,
      Option.pure_def, Option.some.injEq, skipDot_eq_some, versionSuffix_eq_some] at h
    obtain ⟨major, _, hmajor, _, rfl, minor, _, hminor, _, rfl, patch, tail, hpatch, prerelease,
      ⟨htail, rfl⟩, rfl⟩ := h
    obtain ⟨ds, hds, rfl, rfl⟩ := marlindParseUintField_some hmajor
    obtain ⟨es, hes, rfl, rfl⟩ := marlindParseUintField_some hminor
    obtain ⟨fs, hfs, rfl, rfl⟩ := marlindParseUintField_some hpatch
    exact ⟨ds, es, fs, tail, hds, hes, hfs, rfl, htail, rfl⟩
  · rintro ⟨ds, es, fs, tail, hds, hes, hfs, rfl, htail, rfl⟩
    have hstop : ∀ ch ∈ tail.head?, isDigit ch = false := by
      intro ch hch
      rcases htail with rfl | hminus | hplus
      · cases hch
      · cases hminus.symm.trans hch
        decide
      · cases hplus.symm.trans hch
        decide
    have hhead : ∀ rest : List UInt8, ∀ ch ∈ (ascii '.' :: rest).head?, isDigit ch = false := by
      intro rest ch hch
      cases hch
      exact hdot
    simp only [marlindParseSemver, marlindParseUintField_append hds (hhead _),
      Option.bind_eq_bind, Option.bind_some, skipDot, if_true,
      marlindParseUintField_append hes (hhead _), marlindParseUintField_append hfs hstop,
      versionSuffix_eq_some.mpr ⟨htail, rfl⟩]
    rfl

/-! ## Build metadata -/

theorem marlindParseUintField_metadata (str metadata : List UInt8) :
    marlindParseUintField (str ++ ascii '+' :: metadata) =
      (marlindParseUintField str).map fun field =>
        (field.1, field.2 ++ ascii '+' :: metadata) := by
  have hplus : isDigit (ascii '+') = false := by decide
  have hspan : (str ++ ascii '+' :: metadata).takeWhile isDigit = str.takeWhile isDigit ∧
      (str ++ ascii '+' :: metadata).dropWhile isDigit =
        str.dropWhile isDigit ++ ascii '+' :: metadata := by
    induction str with
    | nil => simp [hplus]
    | cons ch str ih =>
        by_cases hdigit : isDigit ch = true
        · simp [hdigit, ih.1, ih.2]
        · simp [hdigit]
  rw [marlindParseUintField_eq, marlindParseUintField_eq, hspan.1, hspan.2]
  split <;> rfl

theorem skipDot_metadata (str metadata : List UInt8) :
    skipDot (str ++ ascii '+' :: metadata) =
      (skipDot str).map fun cur => cur ++ ascii '+' :: metadata := by
  cases str with
  | nil => rfl
  | cons ch str =>
      rw [List.cons_append, skipDot, skipDot]
      split <;> rfl

theorem versionSuffix_metadata (str metadata : List UInt8) :
    versionSuffix (str ++ ascii '+' :: metadata) = versionSuffix str := by
  cases str <;> rfl

theorem marlindParseSemver_metadata (str metadata : List UInt8) :
    marlindParseSemver (str ++ ascii '+' :: metadata) = marlindParseSemver str := by
  simp only [marlindParseSemver, Option.bind_eq_bind, marlindParseUintField_metadata,
    skipDot_metadata, versionSuffix_metadata, Option.bind_map, Function.comp_def]

/-! ## The order -/

/-- What orders versions: a pre-release stands below its release. -/
def MarlindSemver.key (v : MarlindSemver) : Nat ×ₗ Nat ×ₗ Nat ×ₗ Bool :=
  toLex (v.major, toLex (v.minor, toLex (v.patch, !v.prerelease)))

theorem MarlindSemver.key_lt_iff (va vb : MarlindSemver) :
    va.key < vb.key ↔ va.major < vb.major ∨ va.major = vb.major ∧
      (va.minor < vb.minor ∨ va.minor = vb.minor ∧
        (va.patch < vb.patch ∨ va.patch = vb.patch ∧
          va.prerelease = true ∧ vb.prerelease = false)) := by
  simp only [key, Prod.Lex.toLex_lt_toLex, Bool.lt_iff]
  cases va.prerelease <;> cases vb.prerelease <;> simp

theorem semverCmp_eq (va vb : MarlindSemver) :
    semverCmp va vb =
      if va.key < vb.key then .less else if vb.key < va.key then .greater else .equal := by
  simp only [semverCmp, MarlindSemver.key_lt_iff]
  obtain hmajor | hmajor | hmajor := Nat.lt_trichotomy va.major vb.major
  · simp [hmajor, hmajor.ne]
  · obtain hminor | hminor | hminor := Nat.lt_trichotomy va.minor vb.minor
    · simp [hmajor, hminor, hminor.ne]
    · obtain hpatch | hpatch | hpatch := Nat.lt_trichotomy va.patch vb.patch
      · simp [hmajor, hminor, hpatch, hpatch.ne]
      · cases va.prerelease <;> cases vb.prerelease <;> simp [hmajor, hminor, hpatch]
      · simp [hmajor, hminor, hpatch, hpatch.ne', hpatch.not_gt]
    · simp [hmajor, hminor, hminor.ne', hminor.not_gt]
  · simp [hmajor, hmajor.ne', hmajor.not_gt]

theorem semverCmp_eq_less {va vb : MarlindSemver} :
    semverCmp va vb = .less ↔ va.key < vb.key := by
  rw [semverCmp_eq]
  split_ifs <;> simp_all

theorem semverCmp_eq_greater {va vb : MarlindSemver} :
    semverCmp va vb = .greater ↔ vb.key < va.key := by
  rw [semverCmp_eq]
  split_ifs with hless
  · simpa using hless.le
  · simp_all
  · simp_all

theorem semverCmp_eq_equal {va vb : MarlindSemver} :
    semverCmp va vb = .equal ↔ va.key = vb.key := by
  rw [semverCmp_eq]
  split_ifs with hless hgreater
  · simpa using hless.ne
  · simpa using hgreater.ne'
  · simpa using le_antisymm (not_lt.mp hgreater) (not_lt.mp hless)

/-! ## Versions -/

structure Version where
  text : List UInt8
  semver : MarlindSemver
  parses : marlindParseSemver text = some semver

theorem Version.cmp_eq (a b : Version) :
    marlindVersionCmp a.text b.text = semverCmp a.semver b.semver := by
  rw [marlindVersionCmp, a.parses, b.parses]

def Version.NotGreater (a b : Version) : Prop := marlindVersionCmp a.text b.text ≠ .greater

theorem Version.notGreater_iff (a b : Version) : a.NotGreater b ↔ a.semver.key ≤ b.semver.key := by
  rw [NotGreater, cmp_eq, ne_eq, semverCmp_eq_greater, not_lt]

theorem marlindVersionCmp_eq_unparseable (lhs rhs : List UInt8) :
    marlindVersionCmp lhs rhs = .unparseable ↔
      marlindParseSemver lhs = none ∨ marlindParseSemver rhs = none := by
  rw [marlindVersionCmp]
  cases marlindParseSemver lhs with
  | none => simp
  | some va =>
      cases marlindParseSemver rhs with
      | none => simp
      | some vb =>
          have hne : semverCmp va vb ≠ .unparseable := by
            rw [semverCmp_eq]
            split_ifs <;> simp
          simpa using hne

theorem exists_versions {lhs rhs : List UInt8} (h : marlindVersionCmp lhs rhs ≠ .unparseable) :
    ∃ a b : Version, a.text = lhs ∧ b.text = rhs := by
  rw [ne_eq, marlindVersionCmp_eq_unparseable, not_or] at h
  obtain ⟨va, ha⟩ := Option.ne_none_iff_exists'.mp h.1
  obtain ⟨vb, hb⟩ := Option.ne_none_iff_exists'.mp h.2
  exact ⟨⟨lhs, va, ha⟩, ⟨rhs, vb, hb⟩, rfl, rfl⟩

theorem marlindVersionCmp_swap (lhs rhs : List UInt8) :
    marlindVersionCmp lhs rhs = .less ↔ marlindVersionCmp rhs lhs = .greater := by
  rw [marlindVersionCmp, marlindVersionCmp]
  cases marlindParseSemver lhs with
  | none => cases marlindParseSemver rhs <;> simp
  | some va =>
      cases marlindParseSemver rhs with
      | none => simp
      | some vb => exact semverCmp_eq_less.trans semverCmp_eq_greater.symm

theorem marlindVersionCmp_congr {lhs rhs : List UInt8}
    (h : marlindVersionCmp lhs rhs = .equal) (str : List UInt8) :
    marlindVersionCmp lhs str = marlindVersionCmp rhs str ∧
      marlindVersionCmp str lhs = marlindVersionCmp str rhs := by
  obtain ⟨a, b, rfl, rfl⟩ := exists_versions (by rw [h]; decide)
  rw [Version.cmp_eq, semverCmp_eq_equal] at h
  simp only [marlindVersionCmp, a.parses, b.parses]
  cases marlindParseSemver str with
  | none => exact ⟨rfl, rfl⟩
  | some v => simp only [semverCmp_eq, h, and_self]

theorem Version.prerelease_less {a b : Version} (hmajor : a.semver.major = b.semver.major)
    (hminor : a.semver.minor = b.semver.minor) (hpatch : a.semver.patch = b.semver.patch)
    (ha : a.semver.prerelease = true) (hb : b.semver.prerelease = false) :
    marlindVersionCmp a.text b.text = .less := by
  rw [cmp_eq, semverCmp_eq_less, MarlindSemver.key_lt_iff]
  exact .inr ⟨hmajor, .inr ⟨hminor, .inr ⟨hpatch, ha, hb⟩⟩⟩

/-- The floor is the least version there is, so every object whose version parses clears it. -/
theorem marlindBpfObjectSupported_eq_ok (version : List UInt8) :
    marlindBpfObjectSupported version = .ok ↔ ∃ v, SemverText version v := by
  have hmin : marlindParseSemver marlindMinBpfVersion = some ⟨0, 0, 0, true⟩ := by decide +kernel
  simp only [← marlindParseSemver_eq_some, marlindBpfObjectSupported, marlindVersionCmp, hmin]
  cases marlindParseSemver version with
  | none => simp
  | some v =>
      have hfloor : ¬v.key < MarlindSemver.key ⟨0, 0, 0, true⟩ := by
        rw [MarlindSemver.key_lt_iff]
        simp
      dsimp only
      rw [semverCmp_eq, if_neg hfloor]
      split_ifs <;> simp

/-- What parses, and how what parses is ordered. -/
theorem marlindVersionCmp_preorder :
    (∀ str v, marlindParseSemver str = some v ↔ SemverText str v) ∧
      (∀ a : Version, a.NotGreater a) ∧
      (∀ a b c : Version, a.NotGreater b → b.NotGreater c → a.NotGreater c) ∧
      (∀ a b : Version, a.NotGreater b ∨ b.NotGreater a) ∧
      (∀ lhs rhs, marlindVersionCmp lhs rhs = .less ↔ marlindVersionCmp rhs lhs = .greater) ∧
      (∀ lhs rhs str, marlindVersionCmp lhs rhs = .equal →
        marlindVersionCmp lhs str = marlindVersionCmp rhs str ∧
          marlindVersionCmp str lhs = marlindVersionCmp str rhs) ∧
      (∀ lhs rhs metadata,
        marlindVersionCmp (lhs ++ ascii '+' :: metadata) rhs = marlindVersionCmp lhs rhs ∧
          marlindVersionCmp rhs (lhs ++ ascii '+' :: metadata) = marlindVersionCmp rhs lhs) ∧
      (∀ a b : Version, a.semver = { b.semver with prerelease := true } →
        b.semver.prerelease = false → marlindVersionCmp a.text b.text = .less) ∧
      (∀ lhs rhs, marlindVersionCmp lhs rhs = .unparseable ↔
        marlindParseSemver lhs = none ∨ marlindParseSemver rhs = none) ∧
      ∀ ds val, (∀ ch ∈ ds, isDigit ch = true) → ds.foldlM uintFieldStep 0 = some val →
        val = decimal ds ∧ val ≤ 4294967289 := by
  refine ⟨fun _ _ => marlindParseSemver_eq_some, fun a => ?_, fun a b c hab hbc => ?_,
    fun a b => ?_, marlindVersionCmp_swap, fun lhs rhs str h => marlindVersionCmp_congr h str,
    fun lhs rhs metadata => ?_, fun a b ha hb => ?_, marlindVersionCmp_eq_unparseable,
    fun ds val hdigits hval => ?_⟩
  · exact (a.notGreater_iff a).mpr le_rfl
  · rw [Version.notGreater_iff] at hab hbc ⊢
    exact hab.trans hbc
  · rw [Version.notGreater_iff, Version.notGreater_iff]
    exact le_total _ _
  · simp only [marlindVersionCmp, marlindParseSemver_metadata, and_self]
  · exact Version.prerelease_less (by rw [ha]) (by rw [ha]) (by rw [ha]) (by rw [ha]) hb
  · rw [foldlM_uintFieldStep hdigits (Nat.zero_le _)] at hval
    split at hval
    · rename_i hbound
      cases hval
      exact ⟨rfl, hbound⟩
    · cases hval

end Marlin
