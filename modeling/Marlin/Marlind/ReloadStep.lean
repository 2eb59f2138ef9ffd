import Marlin.Marlind.ConfCheck
import Marlin.Marlind.Reconcile

/-!
# The writes a reload may make

What the reconciler is for, said without its loops: `ReloadStep` lists the single
writes that are allowed while the maps move to a configuration, each with the
condition that makes it harmless at that moment.  The invariants of a reload are
proved here, for any sequence of such steps; that every write of `reconcileApply`
is one of them is proved elsewhere.
-/

namespace Marlin

open Marlin.Library

/-- Every key of `vip_map` is one that the datapath can ask for. -/
def Maps.KeysCanonical (mp : Maps) : Prop :=
  ∀ key vipMeta, mp.vipMap.lookup key = some vipMeta → key.Canonical

section

variable {S : Type} [LinearOrder S] (score : UInt64 → Nat → S) (conf : MarlinConf)

def Filled (mp : Maps) : Prop :=
  conf.IdsValid →
    ∀ b ∈ conf.backends, ∃ ifindex, mp.backends b.id = backendValue b ifindex

def Generated (vip : ConfVip) (num : Nat) (mp : Maps) : Prop :=
  ∀ row < tableSize, mp.fwdRow num row = genBlock score conf vip row

/-- Every live key that the datapath can ask for is an entry's, with its metadata and its
generated block. -/
def Settled (mp : Maps) : Prop :=
  ∀ key vipMeta, key.Canonical → mp.vipMap.lookup key = some vipMeta →
    ∃ vip ∈ conf.vips, key ∈ vip.keys ∧ vipMeta = vip.vipMeta ∧
      Generated score conf vip vipMeta.vipNum mp

inductive ReloadStep (s t : Maps) : Prop where
  | dropKey (key : VipKey) (hkey : key ∉ conf.keys)
      (ht : t = { s with vipMap := s.vipMap.erase key })
  | fill (b : ConfBackend) (slot ifindex : Nat) (hb : b ∈ conf.backends)
      (hslot : conf.IdsValid → slot = b.id)
      (ht : t = { s with
        backends := Function.update s.backends slot (backendValue b ifindex) })
  | writeRow (vip : ConfVip) (row : Nat) (hvip : vip ∈ conf.vips) (hrow : row < tableSize)
      (hfilled : Filled conf s)
      (howned : ∀ key vipMeta, key.Canonical → s.vipMap.lookup key = some vipMeta →
        vipMeta.vipNum = vip.vipMeta.vipNum → key ∈ vip.keys)
      (ht : t = s.setFwd (fwdIndex vip.vipMeta.vipNum row) (genBlock score conf vip row))
  | publish (vip : ConfVip) (key : VipKey) (slot : Nat) (hvip : vip ∈ conf.vips)
      (hkey : key ∈ vip.keys) (hfilled : Filled conf s)
      (hrows : Generated score conf vip vip.vipMeta.vipNum s)
      (ht : t = { s with vipMap := s.vipMap.update slot key vip.vipMeta })
  | zeroRow (num row : Nat) (hrow : row < tableSize)
      (hfree : ∀ key vipMeta, key.Canonical → s.vipMap.lookup key = some vipMeta →
        vipMeta.vipNum ≠ num)
      (ht : t = s.setFwd (fwdIndex num row) marlinNoBackend)
  | retire (id : Nat) (hid : ∀ b ∈ conf.backends, b.id ≠ id)
      (hcur : (s.backends id).id = id) (hsettled : Settled score conf s)
      (ht : t = { s with backends := Function.update s.backends id 0 })
  | aside (hvipMap : t.vipMap = s.vipMap) (hfwdTable : t.fwdTable = s.fwdTable)
      (hbackends : t.backends = s.backends)

end

/-! ## Rows under single writes -/

theorem Maps.fwdRow_setFwd_self (mp : Maps) (num row value : Nat) :
    (mp.setFwd (fwdIndex num row) value).fwdRow num row = value := by
  simp [Maps.fwdRow, Maps.setFwd]

theorem Maps.fwdRow_setFwd_of_ne (mp : Maps) {num row num' row' : Nat} (value : Nat)
    (hrow : row < tableSize) (hrow' : row' < tableSize)
    (hne : ¬(num' = num ∧ row' = row)) :
    (mp.setFwd (fwdIndex num row) value).fwdRow num' row' = mp.fwdRow num' row' := by
  have hindex : fwdIndex num' row' ≠ fwdIndex num row := by
    intro h
    exact hne ((fwdIndex_inj hrow' hrow).mp h)
  simp [Maps.fwdRow, Maps.setFwd, Function.update_of_ne hindex]

@[simp] theorem Maps.setFwd_vipMap (mp : Maps) (key value : Nat) :
    (mp.setFwd key value).vipMap = mp.vipMap := rfl

@[simp] theorem Maps.setFwd_backends (mp : Maps) (key value : Nat) :
    (mp.setFwd key value).backends = mp.backends := rfl

/-! ## Owners -/

theorem MarlinConf.owner_unique {conf : MarlinConf}
    (hkeys : conf.KeysDistinct) {i j : Nat}
    {vip other : ConfVip} {key : VipKey} (hi : conf.vips[i]? = some vip)
    (hj : conf.vips[j]? = some other) (hkey : key ∈ vip.keys) (hkey' : key ∈ other.keys) :
    i = j := by
  by_contra hne
  have hlt : ∀ {i j : Nat} {vip other : ConfVip}, conf.vips[i]? = some vip →
      conf.vips[j]? = some other → key ∈ vip.keys → key ∈ other.keys → ¬i < j := by
    intro i j vip other hi hj hkey hkey' hij
    obtain ⟨hi', hvip⟩ := List.getElem?_eq_some_iff.mp hi
    obtain ⟨hj', hother⟩ := List.getElem?_eq_some_iff.mp hj
    have hpairs := List.pairwise_flatMap.mp hkeys
    have := List.pairwise_iff_getElem.mp hpairs.2 i j hi' hj' hij
      key (hvip ▸ hkey) key (hother ▸ hkey')
    simp at this
  rcases Nat.lt_or_gt_of_ne hne with h | h
  · exact hlt hi hj hkey hkey' h
  · exact hlt hj hi hkey' hkey h

theorem MarlinConf.owner_eq {conf : MarlinConf}
    (hkeys : conf.KeysDistinct) {vip other : ConfVip}
    {key : VipKey} (hvip : vip ∈ conf.vips) (hother : other ∈ conf.vips)
    (hkey : key ∈ vip.keys) (hkey' : key ∈ other.keys) : vip = other := by
  obtain ⟨i, hi⟩ := List.mem_iff_getElem?.mp hvip
  obtain ⟨j, hj⟩ := List.mem_iff_getElem?.mp hother
  have hij := MarlinConf.owner_unique hkeys hi hj hkey hkey'
  subst hij
  exact Option.some.inj (hi.symm.trans hj)

/-! ## The block generated for an entry -/

theorem genBlock_mem {S : Type} [LinearOrder S] (score : UInt64 → Nat → S)
    (conf : MarlinConf) (vip : ConfVip) (row : Nat) :
    genBlock score conf vip row = marlinNoBackend ∨
      ∃ b ∈ conf.backends, genBlock score conf vip row = b.id := by
  by_cases hne : genMembers conf vip = []
  · left
    rw [genBlock, hne, fwdGenBlock_nil]
    rfl
  · obtain ⟨member, hmember, hrow⟩ := fwdGenBlock_mem score vip.tableSeed hne row
    obtain ⟨m, -, rfl⟩ := List.mem_map.mp hmember
    rw [genBlock, hrow, genMember]
    cases hfind : conf.backends.find? fun b => b.id == m.backendId with
    | none => exact Or.inl rfl
    | some b => exact Or.inr ⟨b, List.mem_of_find?_eq_some hfind, rfl⟩

section Invariants

variable {S : Type} [LinearOrder S] {score : UInt64 → Nat → S} {conf : MarlinConf}
  {s t : Maps}

/-! ## Rows that a kept address reads -/

/--
Every row that a kept address reads is the one it read at the start of the reload
or the one generated for the entry that owns the address.
-/
def AliasSafe (score : UInt64 → Nat → S) (conf : MarlinConf) (start mp : Maps) : Prop :=
  ∀ vip ∈ conf.vips, ∀ key ∈ vip.keys, ∀ vipMeta, mp.vipMap.lookup key = some vipMeta →
    ∀ row < tableSize,
      mp.fwdRow vipMeta.vipNum row = genBlock score conf vip row ∨
      ∃ old, start.vipMap.lookup key = some old ∧
        mp.fwdRow vipMeta.vipNum row = start.fwdRow old.vipNum row

theorem AliasSafe.refl (score : UInt64 → Nat → S) (conf : MarlinConf) (start : Maps) :
    AliasSafe score conf start start :=
  fun _ _ _ _ vipMeta hlive _ _ => Or.inr ⟨vipMeta, hlive, rfl⟩

theorem ReloadStep.aliasSafe {start : Maps}
    (hkeys : conf.KeysDistinct) (hcanon : ∀ key ∈ conf.keys, key.Canonical)
    (hstep : ReloadStep score conf s t) (h : AliasSafe score conf start s) :
    AliasSafe score conf start t := by
  intro vip hvip key hkey vipMeta hlive row hrow
  have hkey' : key.Canonical := hcanon key (List.mem_flatMap.mpr ⟨vip, hvip, hkey⟩)
  cases hstep with
  | dropKey dropped hdropped ht =>
      subst ht
      have hold := ((Table.lookup_erase_iff dropped key s.vipMap vipMeta).mp hlive).2
      exact h vip hvip key hkey vipMeta hold row hrow
  | fill b slot ifindex hb hslot ht =>
      subst ht
      exact h vip hvip key hkey vipMeta hlive row hrow
  | writeRow writer row' hwriter hrow' hfilled howned ht =>
      subst ht
      by_cases hsame : vipMeta.vipNum = writer.vipMeta.vipNum ∧ row = row'
      · -- the guard of the write says that the writer owns the address
        have hown := howned key vipMeta hkey' hlive hsame.1
        have heq := MarlinConf.owner_eq hkeys hvip hwriter hkey hown
        left
        rw [hsame.1, hsame.2, heq, Maps.fwdRow_setFwd_self]
      · rw [Maps.fwdRow_setFwd_of_ne s _ hrow' hrow hsame]
        exact h vip hvip key hkey vipMeta hlive row hrow
  | publish writer pub slot hwriter hpub hfilled hrows ht =>
      subst ht
      rw [Table.lookup_update] at hlive
      by_cases hsame : key = pub
      · subst hsame
        rw [if_pos rfl] at hlive
        cases hlive
        have heq := MarlinConf.owner_eq hkeys hvip hwriter hkey hpub
        subst heq
        exact Or.inl (hrows row hrow)
      · rw [if_neg hsame] at hlive
        exact h vip hvip key hkey vipMeta hlive row hrow
  | zeroRow num row' hrow' hfree ht =>
      subst ht
      have hne : ¬(vipMeta.vipNum = num ∧ row = row') :=
        fun hsame => hfree key vipMeta hkey' hlive hsame.1
      rw [Maps.fwdRow_setFwd_of_ne s _ hrow' hrow hne]
      exact h vip hvip key hkey vipMeta hlive row hrow
  | retire id hid hcur hsettled ht =>
      subst ht
      exact h vip hvip key hkey vipMeta hlive row hrow
  | aside hvipMap hfwdTable hbackends =>
      rw [hvipMap] at hlive
      have hrows : t.fwdRow vipMeta.vipNum row = s.fwdRow vipMeta.vipNum row := by
        simp [Maps.fwdRow, hfwdTable]
      rw [hrows]
      exact h vip hvip key hkey vipMeta hlive row hrow

/-- A step changes a row under a live kept address only to its owner's generated row. -/
theorem ReloadStep.changed_row (hkeys : conf.KeysDistinct)
    (hcanon : ∀ key ∈ conf.keys, key.Canonical) (hstep : ReloadStep score conf s t)
    {vip : ConfVip} {key : VipKey} {vipMeta : VipMeta}
    {row : Nat} (hvip : vip ∈ conf.vips) (hkey : key ∈ vip.keys)
    (hlive : s.vipMap.lookup key = some vipMeta) (hrow : row < tableSize)
    (hchanged : t.fwdRow vipMeta.vipNum row ≠ s.fwdRow vipMeta.vipNum row) :
    t.fwdRow vipMeta.vipNum row = genBlock score conf vip row := by
  have hkey' : key.Canonical := hcanon key (List.mem_flatMap.mpr ⟨vip, hvip, hkey⟩)
  cases hstep with
  | writeRow writer row' hwriter hrow' hfilled howned ht =>
      subst ht
      by_cases hsame : vipMeta.vipNum = writer.vipMeta.vipNum ∧ row = row'
      · have hown := howned key vipMeta hkey' hlive hsame.1
        have heq := MarlinConf.owner_eq hkeys hvip hwriter hkey hown
        rw [hsame.1, hsame.2, heq, Maps.fwdRow_setFwd_self]
      · exact absurd (Maps.fwdRow_setFwd_of_ne s _ hrow' hrow hsame) hchanged
  | zeroRow num row' hrow' hfree ht =>
      subst ht
      have hne : ¬(vipMeta.vipNum = num ∧ row = row') :=
        fun hsame => hfree key vipMeta hkey' hlive hsame.1
      exact absurd (Maps.fwdRow_setFwd_of_ne s _ hrow' hrow hne) hchanged
  | dropKey dropped hdropped ht => exact absurd (by rw [ht]; rfl) hchanged
  | fill b slot ifindex hb hslot ht => exact absurd (by rw [ht]; rfl) hchanged
  | publish writer pub slot hwriter hpub hfilled hrows ht =>
      exact absurd (by rw [ht]; rfl) hchanged
  | retire id hid hcur hsettled ht => exact absurd (by rw [ht]; rfl) hchanged
  | aside hvipMap hfwdTable hbackends =>
      exact absurd (by simp [Maps.fwdRow, hfwdTable]) hchanged

/-! ## Slots that a live row names -/

def Maps.Populated (mp : Maps) (id : Nat) : Prop := (mp.backends id).id = id ∧ id ≠ 0

def Maps.LiveRow (mp : Maps) (value : Nat) : Prop :=
  ∃ key vipMeta row, mp.vipMap.lookup key = some vipMeta ∧ row < tableSize ∧
    mp.fwdRow vipMeta.vipNum row = value

/-- Every live row is 0 or names a populated slot. -/
def Maps.RowsPopulated (mp : Maps) : Prop :=
  ∀ value, mp.LiveRow value → value = marlinNoBackend ∨ mp.Populated value

theorem Filled.populated (hchecked : conf.Checked) (h : Filled conf s) {b : ConfBackend}
    (hb : b ∈ conf.backends) : s.Populated b.id := by
  obtain ⟨ifindex, hvalue⟩ := h hchecked.idsValid b hb
  exact ⟨by rw [hvalue]; rfl, hchecked.id_ne_zero b hb⟩

theorem ReloadStep.liveRow (hstep : ReloadStep score conf s t) (hs : s.KeysCanonical)
    {value : Nat} (hlive : t.LiveRow value) :
    s.LiveRow value ∨
      (t.backends = s.backends ∧ Filled conf s ∧
        (value = marlinNoBackend ∨ ∃ b ∈ conf.backends, value = b.id)) := by
  obtain ⟨key, vipMeta, row, hkey, hrow, hvalue⟩ := hlive
  cases hstep with
  | dropKey dropped hdropped ht =>
      subst ht
      have hold := ((Table.lookup_erase_iff dropped key s.vipMap vipMeta).mp hkey).2
      exact Or.inl ⟨key, vipMeta, row, hold, hrow, hvalue⟩
  | fill b slot ifindex hb hslot ht =>
      subst ht
      exact Or.inl ⟨key, vipMeta, row, hkey, hrow, hvalue⟩
  | writeRow writer row' hwriter hrow' hfilled howned ht =>
      subst ht
      by_cases hsame : vipMeta.vipNum = writer.vipMeta.vipNum ∧ row = row'
      · rw [hsame.1, hsame.2, Maps.fwdRow_setFwd_self] at hvalue
        refine Or.inr ⟨rfl, hfilled, ?_⟩
        rw [← hvalue]
        exact genBlock_mem score conf writer row'
      · rw [Maps.fwdRow_setFwd_of_ne s _ hrow' hrow hsame] at hvalue
        exact Or.inl ⟨key, vipMeta, row, hkey, hrow, hvalue⟩
  | publish writer pub slot hwriter hpub hfilled hrows ht =>
      subst ht
      rw [Table.lookup_update] at hkey
      by_cases hsame : key = pub
      · rw [if_pos hsame] at hkey
        cases hkey
        refine Or.inr ⟨rfl, hfilled, ?_⟩
        rw [← hvalue]
        have hgen : s.fwdRow writer.vipMeta.vipNum row = genBlock score conf writer row :=
          hrows row hrow
        change s.fwdRow writer.vipMeta.vipNum row = _ ∨
          ∃ b ∈ conf.backends, s.fwdRow writer.vipMeta.vipNum row = _
        rw [hgen]
        exact genBlock_mem score conf writer row
      · rw [if_neg hsame] at hkey
        exact Or.inl ⟨key, vipMeta, row, hkey, hrow, hvalue⟩
  | zeroRow num row' hrow' hfree ht =>
      subst ht
      have hne : ¬(vipMeta.vipNum = num ∧ row = row') :=
        fun hsame => hfree key vipMeta (hs key vipMeta hkey) hkey hsame.1
      rw [Maps.fwdRow_setFwd_of_ne s _ hrow' hrow hne] at hvalue
      exact Or.inl ⟨key, vipMeta, row, hkey, hrow, hvalue⟩
  | retire id hid hcur hsettled ht =>
      subst ht
      exact Or.inl ⟨key, vipMeta, row, hkey, hrow, hvalue⟩
  | aside hvipMap hfwdTable hbackends =>
      rw [hvipMap] at hkey
      rw [Maps.fwdRow, hfwdTable] at hvalue
      exact Or.inl ⟨key, vipMeta, row, hkey, hrow, hvalue⟩

theorem Settled.liveRow (h : Settled score conf s) (hs : s.KeysCanonical) {value : Nat}
    (hlive : s.LiveRow value) :
    value = marlinNoBackend ∨ ∃ b ∈ conf.backends, value = b.id := by
  obtain ⟨key, vipMeta, row, hkey, hrow, rfl⟩ := hlive
  obtain ⟨vip, -, -, -, hrows⟩ := h key vipMeta (hs key vipMeta hkey) hkey
  rw [hrows row hrow]
  exact genBlock_mem score conf vip row

/-- What a step can do to a slot that a live row names. -/
theorem ReloadStep.slot (hvalid : conf.IdsValid) (hstep : ReloadStep score conf s t)
    (hs : s.KeysCanonical) {id : Nat} (hlive : s.LiveRow id) (hid : id ≠ marlinNoBackend) :
    t.backends id = s.backends id ∨
      ∃ b ∈ conf.backends, b.id = id ∧ ∃ ifindex, t.backends id = backendValue b ifindex := by
  cases hstep with
  | dropKey dropped hdropped ht => exact Or.inl (by rw [ht])
  | fill b slot ifindex hb hslot ht =>
      rw [hslot hvalid] at ht
      subst ht
      by_cases heq : id = b.id
      · exact Or.inr ⟨b, hb, heq.symm, ifindex, by simp [heq]⟩
      · exact Or.inl (Function.update_of_ne heq _ _)
  | writeRow writer row hwriter hrow hfilled howned ht => exact Or.inl (by rw [ht]; rfl)
  | publish writer pub slot hwriter hpub hfilled hrows ht => exact Or.inl (by rw [ht])
  | zeroRow num row hrow hfree ht => exact Or.inl (by rw [ht]; rfl)
  | retire retired hretired hcur hsettled ht =>
      subst ht
      left
      refine Function.update_of_ne ?_ _ _
      rintro rfl
      rcases hsettled.liveRow hs hlive with hzero | ⟨b, hb, heq⟩
      · exact hid hzero
      · exact hretired b hb heq.symm
  | aside hvipMap hfwdTable hbackends => exact Or.inl (by rw [hbackends])

theorem ReloadStep.rowsPopulated (hchecked : conf.Checked)
    (hstep : ReloadStep score conf s t) (hs : s.KeysCanonical) (h : s.RowsPopulated) :
    t.RowsPopulated := by
  intro value hlive
  by_cases hzero : value = marlinNoBackend
  · exact Or.inl hzero
  right
  rcases hstep.liveRow hs hlive with hold | ⟨hbackends, hfilled, hgen⟩
  · rcases hstep.slot hchecked.idsValid hs hold hzero with hslot | ⟨b, hb, rfl, ifindex, hslot⟩
    · have hpopulated := (h value hold).resolve_left hzero
      exact ⟨by rw [hslot]; exact hpopulated.1, hpopulated.2⟩
    · exact ⟨by rw [hslot]; rfl, hzero⟩
  · obtain ⟨b, hb, rfl⟩ := hgen.resolve_left hzero
    have hpopulated := hfilled.populated hchecked hb
    exact ⟨by rw [hbackends]; exact hpopulated.1, hpopulated.2⟩

/-! ## Slots that no live row names -/

theorem ReloadStep.backends_cases (hvalid : conf.IdsValid) (hstep : ReloadStep score conf s t) :
    t.backends = s.backends ∨
      (∃ b ∈ conf.backends, ∃ ifindex,
        t.backends = Function.update s.backends b.id (backendValue b ifindex)) ∨
      ∃ id, (∀ b ∈ conf.backends, b.id ≠ id) ∧ (s.backends id).id = id ∧
        t.backends = Function.update s.backends id 0 := by
  cases hstep with
  | dropKey dropped hdropped ht => exact Or.inl (by rw [ht])
  | fill b slot ifindex hb hslot ht =>
      rw [hslot hvalid] at ht
      exact Or.inr (Or.inl ⟨b, hb, ifindex, by rw [ht]⟩)
  | writeRow writer row hwriter hrow hfilled howned ht => exact Or.inl (by rw [ht]; rfl)
  | publish writer pub slot hwriter hpub hfilled hrows ht => exact Or.inl (by rw [ht])
  | zeroRow num row hrow hfree ht => exact Or.inl (by rw [ht]; rfl)
  | retire id hid hcur hsettled ht => exact Or.inr (Or.inr ⟨id, hid, hcur, by rw [ht]⟩)
  | aside hvipMap hfwdTable hbackends => exact Or.inl hbackends

def Maps.UpSlotsOwn (mp : Maps) : Prop :=
  ∀ id, (mp.backends id).flags &&& marlinBeFState ≠ 0 → (mp.backends id).id = id

theorem ReloadStep.upSlotsOwn (hvalid : conf.IdsValid) (hstep : ReloadStep score conf s t)
    (h : s.UpSlotsOwn) : t.UpSlotsOwn := by
  intro id hup
  rcases hstep.backends_cases hvalid with heq | ⟨b, -, ifindex, heq⟩ | ⟨other, -, -, heq⟩
  · rw [heq] at hup ⊢
    exact h id hup
  · rw [heq] at hup ⊢
    by_cases hid : id = b.id
    · rw [hid, Function.update_self]
      rfl
    · rw [Function.update_of_ne hid] at hup ⊢
      exact h id hup
  · rw [heq] at hup ⊢
    by_cases hid : id = other
    · rw [hid, Function.update_self] at hup
      exact absurd rfl hup
    · rw [Function.update_of_ne hid] at hup ⊢
      exact h id hup

theorem ReloadStep.slot_kept (hvalid : conf.IdsValid) (hstep : ReloadStep score conf s t)
    {id : Nat} (hid : ∀ b ∈ conf.backends, b.id ≠ id) (hcur : (s.backends id).id ≠ id) :
    t.backends id = s.backends id := by
  rcases hstep.backends_cases hvalid with heq | ⟨b, hb, ifindex, heq⟩ | ⟨other, -, hown, heq⟩
  · rw [heq]
  · rw [heq, Function.update_of_ne (hid b hb).symm]
  · have hne : id ≠ other := by
      rintro rfl
      exact hcur hown
    rw [heq, Function.update_of_ne hne]

/-! ## Identities under live rows -/

/-- Every live row names a backend of a known file, and its slot has that identity. -/
def Vouched (known : List MarlinConf) (mp : Maps) : Prop :=
  ∀ id, mp.LiveRow id → id ≠ marlinNoBackend →
    ∃ f ∈ known, ∃ b ∈ f.backends, b.id = id ∧ (mp.backends id).identity = b.abi.identity

@[simp] theorem backendValue_identity (b : ConfBackend) (ifindex : Nat) :
    (backendValue b ifindex).identity = b.abi.identity := rfl

theorem Filled.vouches (hvalid : conf.IdsValid) (h : Filled conf s) {b : ConfBackend}
    (hb : b ∈ conf.backends) :
    (s.backends b.id).identity = b.abi.identity := by
  obtain ⟨ifindex, hvalue⟩ := h hvalid b hb
  rw [hvalue, backendValue_identity]

theorem ReloadStep.identity_eq {known : List MarlinConf} (hvalid : conf.IdsValid)
    (hstep : ReloadStep score conf s t) (hs : s.KeysCanonical)
    (hagree : ∀ f ∈ known, conf.Agrees f) (h : Vouched known s) {id : Nat}
    (hlive : s.LiveRow id) (hid : id ≠ marlinNoBackend) :
    (t.backends id).identity = (s.backends id).identity := by
  rcases hstep.slot hvalid hs hlive hid with hslot | ⟨b, hb, hbid, ifindex, hslot⟩
  · rw [hslot]
  · obtain ⟨f, hf, pb, hpb, hpbid, hidentity⟩ := h id hlive hid
    rw [hslot, backendValue_identity, hidentity]
    exact hagree f hf b hb pb hpb (hbid.trans hpbid.symm)

theorem ReloadStep.vouched {known : List MarlinConf} (hvalid : conf.IdsValid)
    (hstep : ReloadStep score conf s t) (hs : s.KeysCanonical)
    (hagree : ∀ f ∈ known, conf.Agrees f) (hconf : conf ∈ known) (h : Vouched known s) :
    Vouched known t := by
  intro id hlive hid
  rcases hstep.liveRow hs hlive with hold | ⟨hbackends, hfilled, hgen⟩
  · obtain ⟨f, hf, b, hb, hbid, hidentity⟩ := h id hold hid
    exact ⟨f, hf, b, hb, hbid, (hstep.identity_eq hvalid hs hagree h hold hid).trans hidentity⟩
  · obtain ⟨b, hb, rfl⟩ := hgen.resolve_left hid
    exact ⟨conf, hconf, b, hb, rfl, by rw [hbackends]; exact hfilled.vouches hvalid hb⟩

/-! ## Canonical keys -/

theorem ReloadStep.keysCanonical (hcanon : ∀ key ∈ conf.keys, key.Canonical)
    (hstep : ReloadStep score conf s t) (h : s.KeysCanonical) : t.KeysCanonical := by
  intro key vipMeta hkey
  cases hstep with
  | dropKey dropped hdropped ht =>
      subst ht
      exact h key vipMeta ((Table.lookup_erase_iff dropped key s.vipMap vipMeta).mp hkey).2
  | publish writer pub slot hwriter hpub hfilled hrows ht =>
      subst ht
      rw [Table.lookup_update] at hkey
      by_cases hsame : key = pub
      · exact hcanon key (List.mem_flatMap.mpr ⟨writer, hwriter, hsame ▸ hpub⟩)
      · rw [if_neg hsame] at hkey
        exact h key vipMeta hkey
  | fill b slot ifindex hb hslot ht => exact h key vipMeta (by simpa [ht] using hkey)
  | writeRow writer row hwriter hrow hfilled howned ht =>
      exact h key vipMeta (by simpa [ht] using hkey)
  | zeroRow num row hrow hfree ht => exact h key vipMeta (by simpa [ht] using hkey)
  | retire id hid hcur hsettled ht => exact h key vipMeta (by simpa [ht] using hkey)
  | aside hvipMap hfwdTable hbackends => exact h key vipMeta (by rw [← hvipMap]; exact hkey)

end Invariants

end Marlin
