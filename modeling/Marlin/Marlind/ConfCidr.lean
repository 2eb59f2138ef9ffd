import Mathlib.Data.List.TakeWhile
import Marlin.Marlind.ConfValue

/-!
# The grammar of a prefix

`conf_parse_cidr` against the form it is documented to read, an address and a prefix
length in decimal digits.  It reads the length with `strtoul`, so it also takes white
space and a sign before the digits.
-/

namespace Marlin

/-! ## The documented form -/

def CidrAddress (text : List UInt8) (prefixlen : Nat) (cidr : ConfCidr) : Prop :=
  (∃ addr, confParseIpv4 text = some addr ∧ prefixlen ≤ 32 ∧
      cidr = ⟨false, prefixlen, ⟨addr, 0, 0, 0⟩⟩) ∨
    ∃ addr, confParseIpv6 text = some addr ∧ prefixlen ≤ 128 ∧ cidr = ⟨true, prefixlen, addr⟩

/-- `<addr>/<prefixlen>`. -/
def IsCidr (str : List UInt8) (cidr : ConfCidr) : Prop :=
  str.length < 64 ∧ ∃ text ds, str = text ++ ascii '/' :: ds ∧ ds ≠ [] ∧
    (∀ ch ∈ ds, isDigit ch = true) ∧ CidrAddress text (decimal ds) cidr

/-! ## What `strtoul` reads -/

/-- White space, a sign or none, and digits. -/
structure StrtoulText (spaces sign ds : List UInt8) : Prop where
  spaces : ∀ ch ∈ spaces, isSpace ch = true
  sign : sign = [] ∨ sign = [ascii '+'] ∨ sign = [ascii '-']
  nonempty : ds ≠ []
  digits : ∀ ch ∈ ds, isDigit ch = true
  bounded : decimal ds ≤ ulongMax

def signedValue (sign ds : List UInt8) : Nat :=
  if sign = [ascii '-'] then (2 ^ 64 - decimal ds) % 2 ^ 64 else decimal ds

/-- White space or a sign before the digits of a prefix length that is read all the same. -/
def LoosePrefixlen (str : List UInt8) : Prop :=
  str.length < 64 ∧ ∃ text spaces sign ds cidr,
    str = text ++ ascii '/' :: (spaces ++ sign ++ ds) ∧ StrtoulText spaces sign ds ∧
      (spaces ≠ [] ∨ sign ≠ []) ∧ CidrAddress text (signedValue sign ds) cidr

theorem isSpace_ne {ch : UInt8} (h : isSpace ch = true) :
    isDigit ch = false ∧ ch ≠ ascii '+' ∧ ch ≠ ascii '-' := by
  have hall : ∀ n : Fin 256, isSpace (UInt8.ofNat n) = true →
      isDigit (UInt8.ofNat n) = false ∧ UInt8.ofNat n ≠ ascii '+' ∧ UInt8.ofNat n ≠ ascii '-' := by
    decide +kernel
  have hch := hall ⟨ch.toNat, ch.toNat_lt⟩
  rw [UInt8.ofNat_toNat] at hch
  exact hch h

def SignBefore (sign digits : List UInt8) : Prop :=
  sign = [ascii '+'] ∨ sign = [ascii '-'] ∨
    sign = [] ∧ digits.head? ≠ some (ascii '+') ∧ digits.head? ≠ some (ascii '-')

theorem exists_signBefore (body : List UInt8) :
    ∃ sign digits, body = sign ++ digits ∧ SignBefore sign digits := by
  by_cases hplus : body.head? = some (ascii '+')
  · obtain ⟨rest, rfl⟩ := List.head?_eq_some_iff.mp hplus
    exact ⟨[ascii '+'], rest, rfl, .inl rfl⟩
  · by_cases hminus : body.head? = some (ascii '-')
    · obtain ⟨rest, rfl⟩ := List.head?_eq_some_iff.mp hminus
      exact ⟨[ascii '-'], rest, rfl, .inr (.inl rfl)⟩
    · exact ⟨[], body, rfl, .inr (.inr ⟨rfl, hplus, hminus⟩)⟩

theorem strtoul_of_sign {str sign digits : List UInt8}
    (hbody : str.dropWhile isSpace = sign ++ digits) (hsign : SignBefore sign digits) :
    strtoul str =
      if digits.takeWhile isDigit = [] then (0, str, false)
      else if decimal (digits.takeWhile isDigit) > ulongMax then
        (ulongMax, digits.dropWhile isDigit, true)
      else (signedValue sign (digits.takeWhile isDigit), digits.dropWhile isDigit, false) := by
  rw [strtoul, hbody]
  rcases hsign with rfl | rfl | ⟨rfl, hplus, hminus⟩
  · rfl
  · rfl
  · have hplus' : (digits.head? == some (ascii '+')) = false := beq_eq_false_iff_ne.mpr hplus
    have hminus' : (digits.head? == some (ascii '-')) = false := beq_eq_false_iff_ne.mpr hminus
    simp only [List.nil_append, hplus', hminus', Bool.or_false, Bool.false_eq_true, if_false]
    rfl

theorem strtoul_text {spaces sign ds : List UInt8} (h : StrtoulText spaces sign ds) :
    strtoul (spaces ++ sign ++ ds) = (signedValue sign ds, [], false) := by
  have htake : ds.takeWhile isDigit = ds := List.takeWhile_eq_self_iff.mpr h.digits
  have hdrop : ds.dropWhile isDigit = [] := List.dropWhile_eq_nil_iff.mpr h.digits
  obtain ⟨d, rest, rfl⟩ := List.exists_cons_of_ne_nil h.nonempty
  have hd := h.digits d List.mem_cons_self
  have hspace : isSpace d = false := by
    cases hsp : isSpace d with
    | false => rfl
    | true => exact absurd ((isSpace_ne hsp).1.symm.trans hd) (by decide)
  have hplus : d ≠ ascii '+' := fun heq => absurd (heq ▸ hd) (by decide)
  have hminus : d ≠ ascii '-' := fun heq => absurd (heq ▸ hd) (by decide)
  have hbody : (spaces ++ sign ++ d :: rest).dropWhile isSpace = sign ++ d :: rest := by
    rw [List.append_assoc, List.dropWhile_append_of_pos h.spaces]
    rcases h.sign with rfl | rfl | rfl
    · simp [hspace]
    · rfl
    · rfl
  have hsign : SignBefore sign (d :: rest) := by
    rcases h.sign with rfl | rfl | rfl
    · exact .inr (.inr ⟨rfl, by simpa using hplus, by simpa using hminus⟩)
    · exact .inl rfl
    · exact .inr (.inl rfl)
  rw [strtoul_of_sign hbody hsign, htake, hdrop, if_neg h.nonempty,
    if_neg (Nat.not_lt.mpr h.bounded)]

theorem strtoul_read {str : List UInt8} {n : Nat} (hne : str ≠ [])
    (h : strtoul str = (n, [], false)) :
    ∃ spaces sign ds, str = spaces ++ sign ++ ds ∧ StrtoulText spaces sign ds ∧
      n = signedValue sign ds := by
  obtain ⟨sign, digits, hbody, hsign⟩ := exists_signBefore (str.dropWhile isSpace)
  rw [strtoul_of_sign hbody hsign] at h
  split at h
  · exact absurd (congrArg (·.2.1) h) hne
  · rename_i hdigits
    split at h
    · exact absurd (congrArg (·.2.2) h) (by simp)
    · rename_i hbound
      have hvalue := congrArg (·.1) h
      have hend : digits.dropWhile isDigit = [] := congrArg (·.2.1) h
      have hall : ∀ ch ∈ digits, isDigit ch = true := List.dropWhile_eq_nil_iff.mp hend
      rw [List.takeWhile_eq_self_iff.mpr hall] at hdigits hbound hvalue
      refine ⟨str.takeWhile isSpace, sign, digits, ?_, ⟨fun ch hch => List.mem_takeWhile_imp hch,
        ?_, hdigits, hall, Nat.not_lt.mp hbound⟩, hvalue.symm⟩
      · rw [List.append_assoc, ← hbody, List.takeWhile_append_dropWhile]
      · rcases hsign with hplus | hminus | hnone
        · exact .inr (.inl hplus)
        · exact .inr (.inr hminus)
        · exact .inl hnone.1

/-! ## Texts of addresses -/

theorem inetPton4Octets_chars {str : List UInt8} {done octets : List Nat} {octet : Option Nat}
    (h : inetPton4Octets str done octet = some octets) :
    ∀ ch ∈ str, isDigit ch = true ∨ ch = ascii '.' := by
  induction str generalizing done octet with
  | nil => simp
  | cons ch rest ih =>
      unfold inetPton4Octets at h
      split at h
      · rename_i hdigit
        refine List.forall_mem_cons.mpr ⟨.inl hdigit, ?_⟩
        split at h
        · exact ih h
        · dsimp only at h
          split at h
          · cases h
          · exact ih h
      · split at h
        · rename_i hdot
          refine List.forall_mem_cons.mpr ⟨.inr hdot, ?_⟩
          split at h
          · cases h
          · split at h
            · cases h
            · exact ih h
        · cases h

theorem inetPton4_chars {text : List UInt8} {addr : Be32} (h : inetPton4 text = some addr) :
    ∀ ch ∈ text, isDigit ch = true ∨ ch = ascii '.' := by
  obtain ⟨octets, hoctets, -⟩ := Option.map_eq_some_iff.mp h
  exact inetPton4Octets_chars hoctets

theorem inetPton4_not_mem {text : List UInt8} {addr : Be32} (h : inetPton4 text = some addr)
    {ch : UInt8} (hdigit : isDigit ch = false) (hdot : ch ≠ ascii '.') : ch ∉ text := by
  intro hch
  rcases inetPton4_chars h ch hch with hd | hd
  · exact absurd (hdigit.symm.trans hd) (by decide)
  · exact hdot hd

theorem inetPton6Loop_not_mem {str token : List UInt8} {st st' : Inet6Parse}
    (h : inetPton6Loop str token st = some st') (hsuffix : str <:+ token) :
    ascii '/' ∉ str := by
  induction str generalizing token st with
  | nil => simp
  | cons ch rest ih =>
      have htail : rest <:+ token := (List.suffix_cons ch rest).trans hsuffix
      rw [inetPton6Loop] at h
      split at h
      · rename_i digit hhex
        have hne : ascii '/' ≠ ch := fun heq => by
          have hslash : hexNibble (ascii '/') = none := by decide
          exact absurd (hhex.symm.trans (heq ▸ hslash)) (by simp)
        split at h
        · cases h
        · exact List.not_mem_cons_of_ne_of_not_mem hne (ih h htail)
      · split at h
        · rename_i hcolon
          have hne : ascii '/' ≠ ch := fun heq => absurd (heq.trans hcolon) (by decide)
          have hrest : ascii '/' ∉ rest := by
            split at h
            · split at h
              · cases h
              · exact ih h List.suffix_rfl
            · split at h
              · cases h
              · split at h
                · cases h
                · exact ih h List.suffix_rfl
          exact List.not_mem_cons_of_ne_of_not_mem hne hrest
        · split at h
          · obtain ⟨addr, haddr, -⟩ := Option.map_eq_some_iff.mp h
            have hdigit : isDigit (ascii '/') = false := by decide
            have hslash := inetPton4_not_mem haddr hdigit (by decide)
            exact fun hmem => hslash (hsuffix.subset hmem)
          · cases h

theorem inetPton6_not_mem {text : List UInt8} {addr : Addr} (h : inetPton6 text = some addr) :
    ascii '/' ∉ text := by
  obtain ⟨src, hsrc, hloop⟩ := Option.bind_eq_some_iff.mp h
  obtain ⟨st, hst, -⟩ := Option.bind_eq_some_iff.mp hloop
  have hnot := inetPton6Loop_not_mem hst List.suffix_rfl
  cases text with
  | nil => simp
  | cons ch rest =>
      simp only at hsrc
      split at hsrc
      · rename_i hcolon
        split at hsrc
        · cases hsrc
          have hne : ascii '/' ≠ ch := fun heq => absurd (heq.trans hcolon) (by decide)
          exact List.not_mem_cons_of_ne_of_not_mem hne hnot
        · cases hsrc
      · cases hsrc
        exact hnot

theorem inetPton6Loop_no_colon {str token : List UInt8} {st st' : Inet6Parse}
    (h : inetPton6Loop str token st = some st') (hcolon : ascii ':' ∉ str) :
    st'.colon = st.colon ∧ st'.bytes.length ≤ st.bytes.length + 4 := by
  induction str generalizing token st with
  | nil =>
      cases h
      exact ⟨rfl, Nat.le_add_right _ 4⟩
  | cons ch rest ih =>
      obtain ⟨hne, hrest⟩ := List.ne_and_not_mem_of_not_mem_cons hcolon
      rw [inetPton6Loop] at h
      split at h
      · split at h
        · cases h
        · have hstep := ih h hrest
          exact hstep
      · rw [if_neg hne.symm] at h
        split at h
        · obtain ⟨addr, -, rfl⟩ := Option.map_eq_some_iff.mp h
          exact ⟨rfl, by simp [Be32.bytes]⟩
        · cases h

theorem inetPton6_of_inetPton4 {text : List UInt8} {addr : Be32}
    (h : inetPton4 text = some addr) : inetPton6 text = none := by
  have hdigit : isDigit (ascii ':') = false := by decide
  have hcolon := inetPton4_not_mem h hdigit (by decide)
  rw [Option.eq_none_iff_forall_ne_some]
  intro addr6 h6
  obtain ⟨src, hsrc, hloop⟩ := Option.bind_eq_some_iff.mp h6
  obtain ⟨st, hst, hfinish⟩ := Option.bind_eq_some_iff.mp hloop
  obtain ⟨bytes, hbytes, -⟩ := Option.map_eq_some_iff.mp hfinish
  have hsrc' : src = text := by
    cases text with
    | nil => cases hsrc
    | cons ch rest =>
        obtain ⟨hne, -⟩ := List.ne_and_not_mem_of_not_mem_cons hcolon
        simp only [if_neg hne.symm] at hsrc
        exact (Option.some.inj hsrc).symm
  obtain ⟨hnone, hlen⟩ := inetPton6Loop_no_colon hst (hsrc' ▸ hcolon)
  have hshort : st.bytes.length ≤ 4 := hlen
  have hcolons : st.colon = none := hnone
  have hnext : (if st.digits > 0 then st.group else st).colon = none ∧
      (if st.digits > 0 then st.group else st).bytes.length ≤ 6 := by
    split
    · exact ⟨hcolons, by simp [Inet6Parse.group]; omega⟩
    · exact ⟨hcolons, by omega⟩
  rw [inetPton6Finish, if_neg (by omega)] at hbytes
  dsimp only at hbytes
  rw [hnext.1] at hbytes
  dsimp only at hbytes
  rw [if_neg (by omega)] at hbytes
  cases hbytes

/-! ## The two grammars -/

theorem CidrAddress.not_mem {text : List UInt8} {n : Nat} {cidr : ConfCidr}
    (h : CidrAddress text n cidr) : ascii '/' ∉ text := by
  have hdigit : isDigit (ascii '/') = false := by decide
  rcases h with ⟨addr, haddr, -⟩ | ⟨addr, haddr, -⟩
  · exact inetPton4_not_mem haddr hdigit (by decide)
  · exact inetPton6_not_mem haddr

theorem split_slash {text : List UInt8} (h : ascii '/' ∉ text) (rest : List UInt8) :
    (text ++ ascii '/' :: rest).takeWhile (fun ch => decide (ch ≠ ascii '/')) = text ∧
      (text ++ ascii '/' :: rest).dropWhile (fun ch => decide (ch ≠ ascii '/')) =
        ascii '/' :: rest := by
  have hall : ∀ ch ∈ text, decide (ch ≠ ascii '/') = true := fun ch hch =>
    decide_eq_true fun heq => h (heq ▸ hch)
  rw [List.takeWhile_append_of_pos hall, List.dropWhile_append_of_pos hall]
  simp

theorem cidrAddress_iff {text : List UInt8} {plen : Nat} {cidr : ConfCidr} :
    (match confParseIpv4 text with
      | some addr => if plen > 32 then none else some ⟨false, plen, ⟨addr, 0, 0, 0⟩⟩
      | none =>
          match confParseIpv6 text with
          | some addr => if plen > 128 then none else some ⟨true, plen, addr⟩
          | none => none) = some cidr ↔ CidrAddress text plen cidr := by
  rw [CidrAddress]
  cases h4 : confParseIpv4 text with
  | some addr =>
      have h6 : confParseIpv6 text = none := inetPton6_of_inetPton4 h4
      by_cases hlen : plen > 32
      · simp [h6, hlen, Nat.not_le.mpr hlen]
      · simp [h6, hlen, Nat.not_lt.mp hlen, eq_comm]
  | none =>
      cases confParseIpv6 text with
      | none => simp
      | some addr =>
          by_cases hlen : plen > 128
          · simp [hlen, Nat.not_le.mpr hlen]
          · simp [hlen, Nat.not_lt.mp hlen, eq_comm]

theorem confParseCidr_eq_some {str : List UInt8} {cidr : ConfCidr} :
    confParseCidr str = some cidr ↔
      str.length < 64 ∧ ∃ text spaces sign ds, str = text ++ ascii '/' :: (spaces ++ sign ++ ds) ∧
        StrtoulText spaces sign ds ∧ CidrAddress text (signedValue sign ds) cidr := by
  constructor
  · intro h
    simp only [confParseCidr] at h
    split at h
    · cases h
    · rename_i hlen
      refine ⟨by omega, ?_⟩
      split at h
      · cases h
      · rename_i slash digits hrest
        have hslash : slash = ascii '/' := by
          have hhead := List.head?_dropWhile_not (fun ch => decide (ch ≠ ascii '/')) str
          rw [hrest] at hhead
          simpa using hhead
        split at h
        · cases h
        · rename_i hread
          have hstr : str = str.takeWhile (fun ch => decide (ch ≠ ascii '/')) ++
              ascii '/' :: digits := by
            have hcut := List.takeWhile_append_dropWhile (p := fun ch => decide (ch ≠ ascii '/')) (l := str)
            rw [hrest, hslash] at hcut
            exact hcut.symm
          obtain ⟨⟨n, tail, erange⟩, hvalue⟩ : ∃ value, strtoul digits = value := ⟨_, rfl⟩
          rw [hvalue] at hread h
          obtain ⟨hne, htail, herange⟩ : digits ≠ [] ∧ tail = [] ∧ erange = false := by
            simpa using hread
          subst htail herange
          obtain ⟨spaces, sign, ds, rfl, hform, rfl⟩ := strtoul_read hne hvalue
          exact ⟨_, spaces, sign, ds, hstr, hform, cidrAddress_iff.mp h⟩
  · rintro ⟨hlen, text, spaces, sign, ds, rfl, hread, haddr⟩
    obtain ⟨htake, hdrop⟩ := split_slash haddr.not_mem (spaces ++ sign ++ ds)
    have hne : spaces ++ sign ++ ds ≠ [] := by simp [hread.nonempty]
    have hnot : ¬(spaces ++ sign ++ ds = [] ∨ ([] : List UInt8) ≠ [] ∨ false = true) := by
      simp [hread.nonempty]
    rw [confParseCidr, if_neg (by omega)]
    simp only [htake, hdrop, strtoul_text hread]
    rw [if_neg hnot]
    exact cidrAddress_iff.mpr haddr

theorem decimal_le_of_address {text : List UInt8} {n : Nat} {cidr : ConfCidr}
    (h : CidrAddress text n cidr) : n ≤ 128 := by
  rcases h with ⟨addr, -, hn, -⟩ | ⟨addr, -, hn, -⟩ <;> omega

theorem isCidr_iff {str : List UInt8} {cidr : ConfCidr} :
    IsCidr str cidr ↔
      str.length < 64 ∧ ∃ text ds, str = text ++ ascii '/' :: ([] ++ [] ++ ds) ∧
        StrtoulText [] [] ds ∧ CidrAddress text (signedValue [] ds) cidr := by
  constructor
  · rintro ⟨hlen, text, ds, hstr, hne, hdigits, haddr⟩
    have hle := decimal_le_of_address haddr
    have hmax : 128 ≤ ulongMax := by decide
    exact ⟨hlen, text, ds, hstr, ⟨by simp, .inl rfl, hne, hdigits, hle.trans hmax⟩, haddr⟩
  · rintro ⟨hlen, text, ds, hstr, hread, haddr⟩
    exact ⟨hlen, text, ds, hstr, hread.nonempty, hread.digits, haddr⟩

theorem LoosePrefixlen.accepted {str : List UInt8} (h : LoosePrefixlen str) :
    ∃ cidr, confParseCidr str = some cidr ∧ ¬IsCidr str cidr := by
  obtain ⟨hlen, text, spaces, sign, ds, cidr, hstr, hread, hloose, haddr⟩ := h
  refine ⟨cidr, confParseCidr_eq_some.mpr ⟨hlen, text, spaces, sign, ds, hstr, hread, haddr⟩, ?_⟩
  rintro ⟨-, text', ds', hstr', -, hdigits, haddr'⟩
  -- Both readings split the string at its first slash.
  have hfirst := (split_slash haddr.not_mem (spaces ++ sign ++ ds)).2
  have hsecond := (split_slash haddr'.not_mem ds').2
  rw [← hstr] at hfirst
  rw [← hstr'] at hsecond
  obtain ⟨-, hrest⟩ := List.cons.inj (hfirst.symm.trans hsecond)
  rcases hloose with hspaces | hsign
  · obtain ⟨ch, hch⟩ := List.exists_mem_of_ne_nil spaces hspaces
    have hdigit := hdigits ch (by simp [← hrest, hch])
    exact absurd ((isSpace_ne (hread.spaces ch hch)).1.symm.trans hdigit) (by decide)
  · rcases hread.sign with rfl | rfl | rfl
    · exact hsign rfl
    · exact absurd (hdigits (ascii '+') (by simp [← hrest])) (by decide)
    · exact absurd (hdigits (ascii '-') (by simp [← hrest])) (by decide)

/-- The parser accepts the documented form, and nothing else unless white space or a sign
stands before the digits of a prefix length that it reads all the same. -/
theorem confParseCidr_iff_isCidr (str : List UInt8) :
    (∀ cidr, confParseCidr str = some cidr ↔ IsCidr str cidr) ↔ ¬LoosePrefixlen str := by
  constructor
  · intro h hloose
    obtain ⟨cidr, haccepted, hnot⟩ := hloose.accepted
    exact hnot ((h cidr).mp haccepted)
  · intro hstrict cidr
    rw [confParseCidr_eq_some, isCidr_iff]
    refine and_congr_right fun hlen => ?_
    constructor
    · rintro ⟨text, spaces, sign, ds, hstr, hread, haddr⟩
      have hplain : spaces = [] ∧ sign = [] := by
        by_contra hnot
        exact hstrict ⟨hlen, text, spaces, sign, ds, cidr, hstr, hread,
          Classical.not_and_iff_not_or_not.mp hnot, haddr⟩
      obtain ⟨rfl, rfl⟩ := hplain
      exact ⟨text, ds, hstr, hread, haddr⟩
    · rintro ⟨text, ds, hstr, hread, haddr⟩
      exact ⟨text, [], [], ds, hstr, hread, haddr⟩

/-- A plus sign before the prefix length is read over. -/
theorem not_isCidr_plus :
    ¬∀ cidr, confParseCidr (cstr "10.0.0.0/+8") = some cidr ↔
      IsCidr (cstr "10.0.0.0/+8") cidr := by
  intro h
  have hloose : LoosePrefixlen (cstr "10.0.0.0/+8") := by
    refine ⟨by decide, cstr "10.0.0.0", [], cstr "+", cstr "8",
      ⟨false, 8, ⟨⟨10, 0, 0, 0⟩, 0, 0, 0⟩⟩, by decide, ⟨by simp, .inr (.inl rfl), by decide,
        by decide +kernel, by decide⟩, .inr (by decide), .inl ⟨⟨10, 0, 0, 0⟩, ?_, by decide, ?_⟩⟩
    · decide +kernel
    · decide
  obtain ⟨cidr, haccepted, hnot⟩ := hloose.accepted
  exact hnot ((h cidr).mp haccepted)

end Marlin
