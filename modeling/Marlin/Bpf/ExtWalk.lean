import Marlin.Bpf.Wire

/-!
# What the extension-header walk accepts

`marlin_walk_ext6` against chains of extension headers.  The walk follows a chain
header by header, and every chain comes to one of five ends, each with a result of its
own.
-/

namespace Marlin

/-! ## Chains -/

/--
Extension headers from `off`, announced as `nexthdr`, each inside the frame as far as
the walk reads it: their lengths, the fields of the Fragment headers among them, and
what the last one announces.  A Fragment header that is passed belongs to the first
fragment.
-/
inductive Ext6Headers (frame : Frame) : Nat → UInt8 → List Nat → List Be16 → UInt8 → Prop
  | nil (off : Nat) (nexthdr : UInt8) : Ext6Headers frame off nexthdr [] [] nexthdr
  | options {off : Nat} {nexthdr last : UInt8} {lens : List Nat} {frags : List Be16}
      (hnext : nexthdr = ipprotoHopopts ∨ nexthdr = ipprotoRouting ∨ nexthdr = ipprotoDstopts)
      (hfit : off + 2 ≤ frame.length)
      (hrest : Ext6Headers frame (off + ((frame.byte (off + 1)).toNat + 1) * 8)
        (frame.byte off) lens frags last) :
      Ext6Headers frame off nexthdr (((frame.byte (off + 1)).toNat + 1) * 8 :: lens) frags last
  | fragment {off : Nat} {last : UInt8} {lens : List Nat} {frags : List Be16}
      (hfit : off + 8 ≤ frame.length) (hhead : (fragField6 (frame.be16 (off + 2))).offset = 0)
      (hrest : Ext6Headers frame (off + 8) (frame.byte off) lens frags last) :
      Ext6Headers frame off ipprotoFragment (8 :: lens) (frame.be16 (off + 2) :: frags) last

structure LaterFragment (frame : Frame) (off : Nat) (nexthdr : UInt8) : Prop where
  nexthdr : nexthdr = ipprotoFragment
  fit : off + 8 ≤ frame.length
  later : (fragField6 (frame.be16 (off + 2))).offset ≠ 0

def fragUnion (frags : List Be16) : UInt32 :=
  frags.foldr (fun field flags => marlinParseFrag6 field ||| flags) 0

/-- A chain that ends where the walk may stop, and what is reported there. -/
inductive Ext6Accepts (frame : Frame) (maxExt off : Nat) (nexthdr : UInt8) :
    UInt8 → Nat → UInt32 → Prop
  | upper {lens : List Nat} {frags : List Be16} {proto : UInt8}
      (hchain : Ext6Headers frame off nexthdr lens frags proto) (hcount : lens.length ≤ maxExt)
      (hext : marlinIsExt6 proto = false) (hproto : marlinProtoUnsupported proto = false) :
      Ext6Accepts frame maxExt off nexthdr proto (off + lens.sum) (fragUnion frags)
  | fragment {lens : List Nat} {frags : List Be16} {last : UInt8}
      (hchain : Ext6Headers frame off nexthdr lens frags last)
      (hcount : (lens ++ [8]).length ≤ maxExt) (hlater : LaterFragment frame (off + lens.sum) last) :
      Ext6Accepts frame maxExt off nexthdr (frame.byte (off + lens.sum))
        (off + (lens ++ [8]).sum) (fragUnion (frags ++ [frame.be16 (off + lens.sum + 2)]))

def Ext6Unsupported (frame : Frame) (maxExt off : Nat) (nexthdr : UInt8) : Prop :=
  ∃ lens frags last, Ext6Headers frame off nexthdr lens frags last ∧ lens.length ≤ maxExt ∧
    marlinProtoUnsupported last = true

def Ext6TooMany (frame : Frame) (maxExt off : Nat) (nexthdr : UInt8) : Prop :=
  ∃ lens frags last, Ext6Headers frame off nexthdr lens frags last ∧ lens.length = maxExt ∧
    marlinIsExt6 last = true

/-! ## Ends -/

/-- What the walk meets at `off` with `left` headers still allowed, where it goes no further. -/
inductive Ext6End (frame : Frame) (left off : Nat) (nexthdr : UInt8) : Prop
  | upper (hext : marlinIsExt6 nexthdr = false) (hproto : marlinProtoUnsupported nexthdr = false)
  | unsupported (hproto : marlinProtoUnsupported nexthdr = true)
  | limit (hleft : left = 0) (hext : marlinIsExt6 nexthdr = true)
  | truncated (hleft : 0 < left) (hext : marlinIsExt6 nexthdr = true)
      (hshort : frame.length < off + if nexthdr = ipprotoFragment then 8 else 2)
  | fragment (hleft : 0 < left) (hlater : LaterFragment frame off nexthdr)

theorem marlinIsExt6_cases {nexthdr : UInt8} (h : marlinIsExt6 nexthdr = true) :
    (nexthdr = ipprotoHopopts ∨ nexthdr = ipprotoRouting ∨ nexthdr = ipprotoDstopts) ∨
      nexthdr = ipprotoFragment := by
  simp only [marlinIsExt6, Bool.or_eq_true, beq_iff_eq] at h
  tauto

theorem end_or_header (frame : Frame) (left off : Nat) (nexthdr : UInt8) :
    Ext6End frame (left + 1) off nexthdr ∨
      ∃ len fields next, ∀ {lens : List Nat} {frags : List Be16} {last : UInt8},
        Ext6Headers frame (off + len) next lens frags last →
          Ext6Headers frame off nexthdr (len :: lens) (fields ++ frags) last := by
  cases hproto : marlinProtoUnsupported nexthdr with
  | true => exact .inl (.unsupported hproto)
  | false =>
      cases hext : marlinIsExt6 nexthdr with
      | false => exact .inl (.upper hext hproto)
      | true =>
          by_cases hshort : frame.length < off + if nexthdr = ipprotoFragment then 8 else 2
          · exact .inl (.truncated (Nat.succ_pos left) hext hshort)
          · rcases marlinIsExt6_cases hext with hnext | rfl
            · have hne : nexthdr ≠ ipprotoFragment := by
                rcases hnext with rfl | rfl | rfl <;> decide
              rw [if_neg hne, Nat.not_lt] at hshort
              exact .inr ⟨_, [], frame.byte off, fun hrest => .options hnext hshort hrest⟩
            · rw [if_pos rfl, Nat.not_lt] at hshort
              by_cases hhead : (fragField6 (frame.be16 (off + 2))).offset = 0
              · exact .inr ⟨8, [_], frame.byte off, fun hrest => .fragment hshort hhead hrest⟩
              · exact .inl (.fragment (Nat.succ_pos left) ⟨rfl, hshort, hhead⟩)

theorem exists_end (frame : Frame) (left off : Nat) (nexthdr : UInt8) :
    ∃ lens frags last, Ext6Headers frame off nexthdr lens frags last ∧ lens.length ≤ left ∧
      Ext6End frame (left - lens.length) (off + lens.sum) last := by
  induction left generalizing off nexthdr with
  | zero =>
      refine ⟨[], [], nexthdr, .nil off nexthdr, Nat.le_refl 0, ?_⟩
      cases hproto : marlinProtoUnsupported nexthdr with
      | true => exact .unsupported hproto
      | false =>
          cases hext : marlinIsExt6 nexthdr with
          | true => exact .limit rfl hext
          | false => exact .upper hext hproto
  | succ left ih =>
      rcases end_or_header frame left off nexthdr with hend | ⟨len, fields, next, hheader⟩
      · exact ⟨[], [], nexthdr, .nil off nexthdr, Nat.zero_le _, hend⟩
      · obtain ⟨lens, frags, last, hchain, hcount, hend⟩ := ih (off + len) next
        refine ⟨len :: lens, fields ++ frags, last, hheader hchain, Nat.succ_le_succ hcount, ?_⟩
        rw [List.length_cons, Nat.add_sub_add_right, List.sum_cons, ← Nat.add_assoc]
        exact hend

theorem fragUnion_append (frags : List Be16) (field : Be16) :
    fragUnion (frags ++ [field]) = fragUnion frags ||| marlinParseFrag6 field := by
  induction frags with
  | nil => exact (UInt32.or_zero).trans (UInt32.zero_or).symm
  | cons f frags ih =>
      rw [List.cons_append, fragUnion, List.foldr_cons, ← fragUnion, ih, fragUnion, fragUnion,
        List.foldr_cons, UInt32.or_assoc]

/-! ## The walk -/

section Walk

variable {frame : Frame} {maxExt off : Nat} {nexthdr last : UInt8} {lens : List Nat}
  {frags : List Be16}

theorem Ext6Headers.fragUnion_and (h : Ext6Headers frame off nexthdr lens frags last) :
    fragUnion frags &&& marlinCtxFFrag = 0 := by
  have hfirst : marlinCtxFFragFirst &&& marlinCtxFFrag = 0 := by decide
  induction h with
  | nil => rfl
  | options hnext hfit hrest ih => exact ih
  | fragment hfit hhead hrest ih =>
      rw [fragUnion, List.foldr_cons, flags_or_and, ← fragUnion, ih, UInt32.or_zero]
      rcases marlinParseFrag6_head hhead with hnone | hmore
      · rw [hnone, UInt32.zero_and]
      · rw [hmore, hfirst]

theorem marlinWalkExt6Loop_headers (h : Ext6Headers frame off nexthdr lens frags last)
    {i : Nat} (n : Nat) (hcount : i + lens.length ≤ maxExt) {out : MarlinL3}
    (hflags : out.flags &&& marlinCtxFFrag = 0) :
    ∃ out', out'.flags = out.flags ||| fragUnion frags ∧
      marlinWalkExt6Loop frame maxExt (n + lens.length) i off nexthdr out =
        marlinWalkExt6Loop frame maxExt n (i + lens.length) (off + lens.sum) last out' := by
  induction h generalizing i out with
  | nil off nexthdr => exact ⟨out, (UInt32.or_zero).symm, rfl⟩
  | @options off nexthdr _ lens _ hnext hfit hrest ih =>
      rw [List.length_cons] at hcount
      obtain ⟨out', hunion, hwalk⟩ := ih (i := i + 1) (by omega) hflags
      refine ⟨out', hunion, ?_⟩
      have hi : ¬i ≥ maxExt := by omega
      have hlen : ¬off + 2 > frame.length := Nat.not_lt.mpr hfit
      have hturn : marlinWalkExt6Loop frame maxExt (n + lens.length + 1) i off nexthdr out =
          marlinWalkExt6Loop frame maxExt (n + lens.length) (i + 1)
            (off + ((frame.byte (off + 1)).toNat + 1) * 8) (frame.byte off) out := by
        rw [marlinWalkExt6Loop_options_eq hnext, if_neg hi, if_neg hlen]
      rw [List.length_cons, ← Nat.add_assoc, hturn, hwalk, List.sum_cons, Nat.add_right_comm i,
        Nat.add_assoc i, Nat.add_assoc off]
  | @fragment off _ lens frags hfit hhead hrest ih =>
      rw [List.length_cons] at hcount
      have hnext := marlinWalkFrag6_head hflags hhead
      obtain ⟨out', hunion, hwalk⟩ := ih (i := i + 1) (by omega) hnext
      refine ⟨out', ?_, ?_⟩
      · rw [hunion, fragUnion, fragUnion, List.foldr_cons, ← UInt32.or_assoc]
        rfl
      · have hi : ¬i ≥ maxExt := by omega
        have hlen : ¬off + 8 > frame.length := Nat.not_lt.mpr hfit
        have hlen' : ¬off + 2 > frame.length := by omega
        have hturn : marlinWalkExt6Loop frame maxExt (n + lens.length + 1) i off ipprotoFragment out =
            marlinWalkExt6Loop frame maxExt (n + lens.length) (i + 1) (off + 8) (frame.byte off)
              (marlinWalkFrag6 frame off out) := by
          rw [marlinWalkExt6Loop_fragment_eq, hnext, if_neg hi, if_neg hlen', if_neg hlen,
            if_neg (by decide)]
        rw [List.length_cons, ← Nat.add_assoc, hturn, hwalk, List.sum_cons, Nat.add_right_comm i,
          Nat.add_assoc i, Nat.add_assoc off]

theorem marlinWalkExt6_headers (hmax : maxExt ≤ maxExtHdrs) {out : MarlinL3}
    (hflags : out.flags = 0) (h : Ext6Headers frame off nexthdr lens frags last)
    (hcount : lens.length ≤ maxExt) :
    ∃ n out', out'.flags = fragUnion frags ∧
      marlinWalkExt6 frame off nexthdr maxExt out =
        marlinWalkExt6Loop frame maxExt (n + 1) lens.length (off + lens.sum) last out' := by
  have hclear : out.flags &&& marlinCtxFFrag = 0 := by rw [hflags, UInt32.zero_and]
  obtain ⟨n, hn⟩ : ∃ n, maxExtHdrs + 1 = n + 1 + lens.length := ⟨maxExtHdrs - lens.length, by omega⟩
  obtain ⟨out', hunion, hwalk⟩ :=
    marlinWalkExt6Loop_headers h (n + 1) (show 0 + lens.length ≤ maxExt by omega) hclear
  rw [hflags, UInt32.zero_or] at hunion
  rw [Nat.zero_add, ← hn] at hwalk
  exact ⟨n, out', hunion, hwalk⟩

variable {out : MarlinL3} (hmax : maxExt ≤ maxExtHdrs) (hflags : out.flags = 0)
include hmax hflags

theorem walk_of_accepts {proto : UInt8} {l4Off : Nat} {flags : UInt32}
    (h : Ext6Accepts frame maxExt off nexthdr proto l4Off flags) :
    ∃ l3, marlinWalkExt6 frame off nexthdr maxExt out = .ok l3 ∧
      l3.proto = proto ∧ l3.l4Off = l4Off ∧ l3.flags = flags := by
  cases h with
  | @upper lens _ _ hchain hcount hext hproto =>
      obtain ⟨n, out', hunion, hwalk⟩ := marlinWalkExt6_headers hmax hflags hchain hcount
      refine ⟨{ out' with proto := proto, l4Off := off + lens.sum }, ?_, rfl, rfl, hunion⟩
      rw [hwalk, marlinWalkExt6Loop, if_neg (by simp [hproto]), if_pos (by simp [hext])]
  | @fragment lens frags _ hchain hcount hlater =>
      rw [List.length_append, List.length_singleton] at hcount
      obtain ⟨n, out', hunion, hwalk⟩ :=
        marlinWalkExt6_headers hmax hflags hchain (by omega)
      obtain ⟨rfl, hfit, hoffset⟩ := hlater
      have hparse : marlinParseFrag6 (frame.be16 (off + lens.sum + 2)) = marlinCtxFFrag := by
        rw [marlinParseFrag6_eq, if_pos hoffset]
      have hrecord : (marlinWalkFrag6 frame (off + lens.sum) out').flags =
          fragUnion (frags ++ [frame.be16 (off + lens.sum + 2)]) := by
        rw [fragUnion_append, ← hunion]
        rfl
      have hstop : (marlinWalkFrag6 frame (off + lens.sum) out').flags &&& marlinCtxFFrag ≠ 0 := by
        rw [hrecord, fragUnion_append, hparse, flags_or_and, hchain.fragUnion_and]
        decide
      refine ⟨{ marlinWalkFrag6 frame (off + lens.sum) out' with
        proto := frame.byte (off + lens.sum), l4Off := off + lens.sum + 8 }, ?_, rfl, ?_, hrecord⟩
      · rw [hwalk, marlinWalkExt6Loop, if_neg (by decide), if_neg (by decide), if_neg (by omega),
          if_neg (by omega), if_pos (by decide), if_neg (by omega)]
        dsimp only
        rw [if_pos (bne_iff_ne.mpr hstop)]
      · rw [List.sum_append, List.sum_singleton, Nat.add_assoc]

theorem walk_of_unsupported (h : Ext6Unsupported frame maxExt off nexthdr) :
    marlinWalkExt6 frame off nexthdr maxExt out = .error .dropUnsupportedProto := by
  obtain ⟨lens, frags, last, hchain, hcount, hproto⟩ := h
  obtain ⟨n, out', -, hwalk⟩ := marlinWalkExt6_headers hmax hflags hchain hcount
  rw [hwalk, marlinWalkExt6Loop, if_pos hproto]

theorem walk_of_tooMany (h : Ext6TooMany frame maxExt off nexthdr) :
    marlinWalkExt6 frame off nexthdr maxExt out = .error .dropExtHdrLimit := by
  obtain ⟨lens, frags, last, hchain, hcount, hext⟩ := h
  obtain ⟨n, out', -, hwalk⟩ := marlinWalkExt6_headers hmax hflags hchain hcount.le
  have hproto : marlinProtoUnsupported last = false := by
    rcases marlinIsExt6_cases hext with (rfl | rfl | rfl) | rfl <;> rfl
  rw [hwalk, marlinWalkExt6Loop, if_neg (by simp [hproto]), if_neg (by simp [hext]),
    if_pos hcount.ge]

theorem walk_of_truncated (hchain : Ext6Headers frame off nexthdr lens frags last)
    (hcount : lens.length < maxExt) (hext : marlinIsExt6 last = true)
    (hshort : frame.length < off + lens.sum + if last = ipprotoFragment then 8 else 2) :
    marlinWalkExt6 frame off nexthdr maxExt out = .error .dropParseError := by
  obtain ⟨n, out', -, hwalk⟩ := marlinWalkExt6_headers hmax hflags hchain hcount.le
  have hproto : marlinProtoUnsupported last = false := by
    rcases marlinIsExt6_cases hext with (rfl | rfl | rfl) | rfl <;> rfl
  rw [hwalk, marlinWalkExt6Loop, if_neg (by simp [hproto]), if_neg (by simp [hext]),
    if_neg (by omega)]
  split
  · rfl
  · rename_i hfit
    have hlast : last = ipprotoFragment := by
      by_contra hne
      rw [if_neg hne] at hshort
      omega
    subst hlast
    rw [if_pos rfl] at hshort
    rw [if_pos (by decide), if_pos hshort]

theorem walk_cases :
    (∃ proto l4Off flags, Ext6Accepts frame maxExt off nexthdr proto l4Off flags) ∨
      Ext6Unsupported frame maxExt off nexthdr ∨ Ext6TooMany frame maxExt off nexthdr ∨
        marlinWalkExt6 frame off nexthdr maxExt out = .error .dropParseError := by
  obtain ⟨lens, frags, last, hchain, hcount, hend⟩ := exists_end frame maxExt off nexthdr
  cases hend with
  | upper hext hproto => exact .inl ⟨_, _, _, .upper hchain hcount hext hproto⟩
  | unsupported hproto => exact .inr (.inl ⟨lens, frags, last, hchain, hcount, hproto⟩)
  | limit hleft hext => exact .inr (.inr (.inl ⟨lens, frags, last, hchain, by omega, hext⟩))
  | truncated hleft hext hshort =>
      exact .inr (.inr (.inr (walk_of_truncated hmax hflags hchain (by omega) hext hshort)))
  | fragment hleft hlater =>
      have hcount' : (lens ++ [8]).length ≤ maxExt := by
        rw [List.length_append, List.length_singleton]
        omega
      exact .inl ⟨_, _, _, .fragment hchain hcount' hlater⟩

/-! ## What each result says of the chain -/

theorem accepts_of_walk {l3 : MarlinL3}
    (h : marlinWalkExt6 frame off nexthdr maxExt out = .ok l3) :
    Ext6Accepts frame maxExt off nexthdr l3.proto l3.l4Off l3.flags := by
  rcases walk_cases hmax hflags with ⟨proto, l4Off, flags, haccepts⟩ | hend | hend | hend
  · obtain ⟨l3', hok, rfl, rfl, rfl⟩ := walk_of_accepts hmax hflags haccepts
    cases h.symm.trans hok
    exact haccepts
  · cases h.symm.trans (walk_of_unsupported hmax hflags hend)
  · cases h.symm.trans (walk_of_tooMany hmax hflags hend)
  · cases h.symm.trans hend

theorem not_accepts_of_error {rc : MarlinRet}
    (h : marlinWalkExt6 frame off nexthdr maxExt out = .error rc) (proto : UInt8) (l4Off : Nat)
    (flags : UInt32) : ¬Ext6Accepts frame maxExt off nexthdr proto l4Off flags := by
  intro haccepts
  obtain ⟨l3, hok, -⟩ := walk_of_accepts hmax hflags haccepts
  cases h.symm.trans hok

theorem unsupported_of_walk
    (h : marlinWalkExt6 frame off nexthdr maxExt out = .error .dropUnsupportedProto) :
    Ext6Unsupported frame maxExt off nexthdr := by
  rcases walk_cases hmax hflags with ⟨proto, l4Off, flags, haccepts⟩ | hend | hend | hend
  · exact absurd haccepts (not_accepts_of_error hmax hflags h proto l4Off flags)
  · exact hend
  · cases h.symm.trans (walk_of_tooMany hmax hflags hend)
  · cases h.symm.trans hend

theorem tooMany_of_walk
    (h : marlinWalkExt6 frame off nexthdr maxExt out = .error .dropExtHdrLimit) :
    Ext6TooMany frame maxExt off nexthdr := by
  rcases walk_cases hmax hflags with ⟨proto, l4Off, flags, haccepts⟩ | hend | hend | hend
  · exact absurd haccepts (not_accepts_of_error hmax hflags h proto l4Off flags)
  · cases h.symm.trans (walk_of_unsupported hmax hflags hend)
  · exact hend
  · cases h.symm.trans hend

theorem walk_parseError_iff :
    marlinWalkExt6 frame off nexthdr maxExt out = .error .dropParseError ↔
      (∀ proto l4Off flags, ¬Ext6Accepts frame maxExt off nexthdr proto l4Off flags) ∧
        ¬Ext6Unsupported frame maxExt off nexthdr ∧ ¬Ext6TooMany frame maxExt off nexthdr := by
  constructor
  · intro h
    refine ⟨not_accepts_of_error hmax hflags h, fun hend => ?_, fun hend => ?_⟩
    · cases h.symm.trans (walk_of_unsupported hmax hflags hend)
    · cases h.symm.trans (walk_of_tooMany hmax hflags hend)
  · rintro ⟨hnone, hnotUnsupported, hnotMany⟩
    rcases walk_cases hmax hflags with ⟨proto, l4Off, flags, haccepts⟩ | hend | hend | hend
    · exact absurd haccepts (hnone proto l4Off flags)
    · exact absurd hend hnotUnsupported
    · exact absurd hend hnotMany
    · exact hend

/-- The walk accepts the bounded chains, reports what they end with, and refuses every other
input for what stops it. -/
theorem marlinWalkExt6_iff :
    (∀ proto l4Off flags,
      (∃ l3, marlinWalkExt6 frame off nexthdr maxExt out = .ok l3 ∧
          l3.proto = proto ∧ l3.l4Off = l4Off ∧ l3.flags = flags) ↔
        Ext6Accepts frame maxExt off nexthdr proto l4Off flags) ∧
      (marlinWalkExt6 frame off nexthdr maxExt out = .error .dropUnsupportedProto ↔
        Ext6Unsupported frame maxExt off nexthdr) ∧
      (marlinWalkExt6 frame off nexthdr maxExt out = .error .dropExtHdrLimit ↔
        Ext6TooMany frame maxExt off nexthdr) ∧
      (marlinWalkExt6 frame off nexthdr maxExt out = .error .dropParseError ↔
        (∀ proto l4Off flags, ¬Ext6Accepts frame maxExt off nexthdr proto l4Off flags) ∧
          ¬Ext6Unsupported frame maxExt off nexthdr ∧ ¬Ext6TooMany frame maxExt off nexthdr) := by
  refine ⟨fun proto l4Off flags => ⟨?_, walk_of_accepts hmax hflags⟩,
    ⟨unsupported_of_walk hmax hflags, walk_of_unsupported hmax hflags⟩,
    ⟨tooMany_of_walk hmax hflags, walk_of_tooMany hmax hflags⟩, walk_parseError_iff hmax hflags⟩
  rintro ⟨l3, hok, rfl, rfl, rfl⟩
  exact accepts_of_walk hmax hflags hok

end Walk

namespace Sample

def hopFrame : Frame := [6, 0, 0, 0, 0, 0, 0, 0]

end Sample

theorem marlinWalkExt6_iff_hopopts :
    (∀ proto l4Off flags,
      (∃ l3, marlinWalkExt6 Sample.hopFrame 0 ipprotoHopopts 2 0 = .ok l3 ∧
          l3.proto = proto ∧ l3.l4Off = l4Off ∧ l3.flags = flags) ↔
        Ext6Accepts Sample.hopFrame 2 0 ipprotoHopopts proto l4Off flags) ∧
      (marlinWalkExt6 Sample.hopFrame 0 ipprotoHopopts 2 0 = .error .dropUnsupportedProto ↔
        Ext6Unsupported Sample.hopFrame 2 0 ipprotoHopopts) ∧
      (marlinWalkExt6 Sample.hopFrame 0 ipprotoHopopts 2 0 = .error .dropExtHdrLimit ↔
        Ext6TooMany Sample.hopFrame 2 0 ipprotoHopopts) ∧
      (marlinWalkExt6 Sample.hopFrame 0 ipprotoHopopts 2 0 = .error .dropParseError ↔
        (∀ proto l4Off flags,
            ¬Ext6Accepts Sample.hopFrame 2 0 ipprotoHopopts proto l4Off flags) ∧
          ¬Ext6Unsupported Sample.hopFrame 2 0 ipprotoHopopts ∧
          ¬Ext6TooMany Sample.hopFrame 2 0 ipprotoHopopts) :=
  marlinWalkExt6_iff (by decide) rfl

end Marlin
