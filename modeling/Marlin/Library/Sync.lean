import Mathlib.Data.Finset.Card
import Marlin.Library.Table

/-!
# Bringing a table to a list of pairs

A table is brought to a list of key-value pairs one write at a time: every pair is
written, and only then is a key deleted that no pair names.  `SyncStep` lists these
writes; `Between` is what holds after any number of them, `Holds` is where they end.
-/

namespace Marlin.Library.Table

variable {K V : Type} [DecidableEq K]

def wanted (kvs : List (K × V)) : List K := kvs.map Prod.fst

def lastValue (kvs : List (K × V)) (k : K) : Option V := kvs.reverse.lookup k

/-- The table holds the pairs and nothing else. -/
def Holds (kvs : List (K × V)) (t : Table K V) : Prop := ∀ k, t.lookup k = lastValue kvs k

/-- Old and new keys together fit into `n` entries. -/
def Fits (old : Table K V) (kvs : List (K × V)) (n : Nat) : Prop :=
  (old.keys.toFinset ∪ (wanted kvs).toFinset).card ≤ n

/-- One write on the way to the pairs, in a table of at most `n` entries. -/
inductive SyncStep (n : Nat) (kvs : List (K × V)) (s t : Table K V) : Prop where
  | same (ht : t = s)
  | insert (slot : Nat) (kv : K × V) (hkv : kv ∈ kvs) (hroom : kv.1 ∉ s → s.keys.length < n)
      (ht : t = s.update slot kv.1 kv.2)
  | erase (k : K) (hk : k ∉ wanted kvs) (hfull : ∀ j ∈ wanted kvs, j ∈ s) (ht : t = s.erase k)

/-- What holds on the way: no foreign key, and all of the old keys or all of the new. -/
structure Between (old : Table K V) (kvs : List (K × V)) (t : Table K V) : Prop where
  sub : ∀ k ∈ t, k ∈ old ∨ k ∈ wanted kvs
  full : (∀ k ∈ old, k ∈ t) ∨ ∀ k ∈ wanted kvs, k ∈ t

/-! ## Pairs -/

section Pairs

variable {kvs : List (K × V)} {kv : K × V} {k : K}

omit [DecidableEq K] in
@[simp] theorem wanted_nil : wanted ([] : List (K × V)) = [] := rfl

omit [DecidableEq K] in
@[simp] theorem wanted_append (kvs more : List (K × V)) :
    wanted (kvs ++ more) = wanted kvs ++ wanted more :=
  List.map_append

@[simp] theorem lastValue_nil : lastValue ([] : List (K × V)) k = none := rfl

theorem lastValue_snoc :
    lastValue (kvs ++ [kv]) k = if k = kv.1 then some kv.2 else lastValue kvs k := by
  obtain ⟨key, value⟩ := kv
  rw [lastValue, List.reverse_append]
  by_cases h : k = key
  · simp [h]
  · have hne : (k == key) = false := by simpa using h
    simp [h, hne, List.lookup_cons, lastValue]

theorem lastValue_eq_none : lastValue kvs k = none ↔ k ∉ wanted kvs := by
  induction kvs using List.reverseRecOn with
  | nil => simp
  | append_singleton kvs kv ih =>
      rw [lastValue_snoc]
      by_cases h : k = kv.1
      · simp [h, wanted]
      · simpa [h, wanted] using ih

theorem lastValue_isSome : (lastValue kvs k).isSome ↔ k ∈ wanted kvs := by
  rw [← not_iff_not, ← lastValue_eq_none]
  simp

theorem lastValue_eq_some {v : V} (hnodup : (wanted kvs).Nodup) :
    lastValue kvs k = some v ↔ (k, v) ∈ kvs := by
  induction kvs using List.reverseRecOn with
  | nil => simp
  | append_singleton kvs kv ih =>
      rw [wanted_append] at hnodup
      have hnew : kv.1 ∉ wanted kvs := fun h =>
        (List.nodup_append'.mp hnodup).2.2 h (by simp [wanted])
      rw [lastValue_snoc, List.mem_append, List.mem_singleton]
      by_cases h : k = kv.1
      · have hout : (k, v) ∉ kvs := fun hmem => hnew (h ▸ List.mem_map_of_mem hmem)
        rw [if_pos h, Option.some.injEq]
        constructor
        · rintro rfl
          exact Or.inr (by rw [h])
        · rintro (hmem | rfl)
          · exact absurd hmem hout
          · rfl
      · rw [if_neg h, ih (List.nodup_append'.mp hnodup).1]
        constructor
        · exact Or.inl
        · rintro (hmem | rfl)
          · exact hmem
          · exact absurd rfl h

theorem Holds.mem_iff {t : Table K V} (h : Holds kvs t) : k ∈ t ↔ k ∈ wanted kvs := by
  rw [← AList.lookup_isSome, h k, lastValue_isSome]

end Pairs

/-! ## Steps -/

section Steps

variable {old s t : Table K V} {kvs : List (K × V)} {k : K} {n : Nat}

theorem mem_erase_iff {j : K} : j ∈ t.erase k ↔ j ≠ k ∧ j ∈ t := by
  simp

omit [DecidableEq K] in
theorem Between.refl (old : Table K V) (kvs : List (K × V)) : Between old kvs old :=
  ⟨fun _ hk => Or.inl hk, Or.inl fun _ hk => hk⟩

theorem SyncStep.between (hstep : SyncStep n kvs s t) (h : Between old kvs s) :
    Between old kvs t := by
  cases hstep with
  | same ht =>
      subst ht
      exact h
  | insert slot kv hkv hroom ht =>
      subst ht
      have hnew : kv.1 ∈ wanted kvs := List.mem_map_of_mem hkv
      refine ⟨?_, ?_⟩
      · intro k hk
        rcases (mem_update slot kv.1 k kv.2 s).mp hk with rfl | hk
        · exact Or.inr hnew
        · exact h.sub k hk
      · have hgrow : ∀ k, k ∈ s → k ∈ s.update slot kv.1 kv.2 := fun k hk =>
          (mem_update slot kv.1 k kv.2 s).mpr (Or.inr hk)
        exact h.full.imp (fun hold k hk => hgrow k (hold k hk))
          fun hall k hk => hgrow k (hall k hk)
  | erase k hk hfull ht =>
      subst ht
      refine ⟨fun j hj => h.sub j (mem_erase_iff.mp hj).2, Or.inr fun j hj => ?_⟩
      exact mem_erase_iff.mpr ⟨fun heq => hk (heq ▸ hj), hfull j hj⟩

omit [DecidableEq K] in
theorem Between.any (h : Between old kvs t) (p : K → Bool) :
    (t.keys.any p = true → old.keys.any p = true ∨ (wanted kvs).any p = true) ∧
      (old.keys.any p = true → (wanted kvs).any p = true → t.keys.any p = true) := by
  simp only [List.any_eq_true]
  constructor
  · rintro ⟨k, hk, hp⟩
    rcases h.sub k hk with hold | hnew
    · exact Or.inl ⟨k, hold, hp⟩
    · exact Or.inr ⟨k, hnew, hp⟩
  · rintro ⟨k, hk, hp⟩ ⟨j, hj, hq⟩
    rcases h.full with hold | hnew
    · exact ⟨k, hold k hk, hp⟩
    · exact ⟨j, hnew j hj, hq⟩

theorem Between.room (h : Between old kvs t) (hfits : Fits old kvs n)
    (hk : k ∈ wanted kvs) (hnew : k ∉ t) : t.keys.length < n := by
  have hnodup : (k :: t.keys).Nodup := List.nodup_cons.mpr ⟨hnew, t.keys_nodup⟩
  have hsub : (k :: t.keys).toFinset ⊆ old.keys.toFinset ∪ (wanted kvs).toFinset := by
    intro j hj
    rw [List.mem_toFinset] at hj
    rw [Finset.mem_union, List.mem_toFinset, List.mem_toFinset]
    rcases List.mem_cons.mp hj with rfl | hj
    · exact Or.inr hk
    · exact h.sub j hj
  have hcard := Finset.card_le_card hsub
  rw [List.toFinset_card_of_nodup hnodup, List.length_cons] at hcard
  have hfit : (old.keys.toFinset ∪ (wanted kvs).toFinset).card ≤ n := hfits
  omega

theorem fits_of_length (h : old.keys.length + kvs.length ≤ n) : Fits old kvs n := by
  calc (old.keys.toFinset ∪ (wanted kvs).toFinset).card
      ≤ old.keys.toFinset.card + (wanted kvs).toFinset.card := Finset.card_union_le _ _
    _ ≤ old.keys.length + (wanted kvs).length :=
        Nat.add_le_add (List.toFinset_card_le _) (List.toFinset_card_le _)
    _ ≤ n := by simpa [wanted] using h

theorem fits_nil (h : old.keys.length ≤ n) : Fits old [] n :=
  fits_of_length h

theorem length_update (slot : Nat) (v : V) :
    (t.update slot k v).keys.length = if k ∈ t then t.keys.length else t.keys.length + 1 := by
  have hset : (t.update slot k v).keys.toFinset = insert k t.keys.toFinset := by
    ext j
    rw [List.mem_toFinset, Finset.mem_insert, List.mem_toFinset]
    exact mem_update slot k j v t
  have hcard := congrArg Finset.card hset
  rw [List.toFinset_card_of_nodup (AList.keys_nodup _)] at hcard
  rw [hcard]
  split
  · rename_i hmem
    rw [Finset.insert_eq_of_mem (List.mem_toFinset.mpr hmem),
      List.toFinset_card_of_nodup t.keys_nodup]
  · rename_i hmem
    rw [Finset.card_insert_of_notMem fun h => hmem (List.mem_toFinset.mp h),
      List.toFinset_card_of_nodup t.keys_nodup]

theorem length_erase_le : (t.erase k).keys.length ≤ t.keys.length := by
  have hsub : (t.erase k).keys ⊆ t.keys := fun j hj => (mem_erase_iff.mp hj).2
  exact (List.subperm_of_subset (t.erase k).keys_nodup hsub).length_le

theorem SyncStep.length_le (hstep : SyncStep n kvs s t) (h : s.keys.length ≤ n) :
    t.keys.length ≤ n := by
  cases hstep with
  | same ht =>
      subst ht
      exact h
  | insert slot kv hkv hroom ht =>
      subst ht
      rw [length_update]
      split
      · exact h
      · rename_i hnew
        exact hroom hnew
  | erase k hk hfull ht =>
      subst ht
      exact Nat.le_trans length_erase_le h

theorem Holds.keys_toFinset (h : Holds kvs t) : t.keys.toFinset = (wanted kvs).toFinset := by
  ext k
  rw [List.mem_toFinset, List.mem_toFinset]
  exact h.mem_iff

theorem Holds.length_le (h : Holds kvs t) : t.keys.length ≤ kvs.length := by
  rw [← List.toFinset_card_of_nodup t.keys_nodup, h.keys_toFinset]
  refine Nat.le_trans (List.toFinset_card_le _) ?_
  simp [wanted]

end Steps

/-! ## The two loops -/

def Grown (old : Table K V) (done : List (K × V)) (t : Table K V) : Prop :=
  ∀ k, t.lookup k = (lastValue done k).or (old.lookup k)

/--
The pairs are there; a key that no pair names is as it was or gone, and those in `gone`
are gone where `D` holds.
-/
structure Shrunk (D : Prop) (old : Table K V) (kvs : List (K × V)) (gone : List K)
    (t : Table K V) : Prop where
  written : ∀ k ∈ wanted kvs, t.lookup k = lastValue kvs k
  rest : ∀ k, k ∉ wanted kvs → t.lookup k = none ∨ t.lookup k = old.lookup k
  gone : D → ∀ k ∈ gone, k ∉ wanted kvs → t.lookup k = none

section Loops

variable {D : Prop} {old t : Table K V} {kvs done : List (K × V)} {kv : K × V} {gone : List K}
  {k : K}

theorem Grown.nil (old : Table K V) : Grown old [] old := fun _ => rfl

theorem Grown.snoc (h : Grown old done t) (slot : Nat) :
    Grown old (done ++ [kv]) (t.update slot kv.1 kv.2) := by
  intro k
  rw [lookup_update, lastValue_snoc]
  by_cases hk : k = kv.1
  · simp [hk]
  · rw [if_neg hk, if_neg hk]
    exact h k

theorem Grown.mem_iff (h : Grown old done t) : k ∈ t ↔ k ∈ old ∨ k ∈ wanted done := by
  rw [← AList.lookup_isSome, h k, ← AList.lookup_isSome, ← lastValue_isSome]
  simp [Option.isSome_or, or_comm]

theorem Grown.between (h : Grown old done t) (hdone : ∀ k ∈ wanted done, k ∈ wanted kvs) :
    Between old kvs t :=
  ⟨fun _ hk => (h.mem_iff.mp hk).imp id (hdone _), Or.inl fun _ hk => h.mem_iff.mpr (Or.inl hk)⟩

theorem Grown.fits {n : Nat} (h : Grown old kvs t) (hlen : t.keys.length ≤ n) :
    Fits old kvs n := by
  have hset : old.keys.toFinset ∪ (wanted kvs).toFinset = t.keys.toFinset := by
    ext j
    rw [Finset.mem_union, List.mem_toFinset, List.mem_toFinset, List.mem_toFinset]
    exact h.mem_iff.symm
  rw [Fits, hset, List.toFinset_card_of_nodup t.keys_nodup]
  exact hlen

theorem Grown.shrunk (h : Grown old kvs t) : Shrunk D old kvs [] t := by
  refine ⟨?_, ?_, by simp⟩
  · intro k hk
    obtain ⟨v, hv⟩ := Option.isSome_iff_exists.mp (lastValue_isSome.mpr hk)
    rw [h k, hv]
    rfl
  · intro k hk
    rw [h k, lastValue_eq_none.mpr hk]
    exact Or.inr rfl

theorem Grown.shrunk_self (h : Grown old kvs t) : Shrunk D t kvs [] t :=
  ⟨h.shrunk (D := D).written, fun _ _ => Or.inr rfl, by simp⟩

namespace Shrunk

theorem erase (h : Shrunk D old kvs gone t) (hk : k ∉ wanted kvs) :
    Shrunk D old kvs (gone ++ [k]) (t.erase k) := by
  refine ⟨?_, ?_, ?_⟩
  · intro j hj
    have hne : j ≠ k := fun heq => hk (heq ▸ hj)
    rw [AList.lookup_erase_ne hne]
    exact h.written j hj
  · intro j hj
    by_cases heq : j = k
    · subst heq
      exact Or.inl (AList.lookup_erase j t)
    · rw [AList.lookup_erase_ne heq]
      exact h.rest j hj
  · intro hd j hj hj'
    by_cases heq : j = k
    · subst heq
      exact AList.lookup_erase j t
    · rw [AList.lookup_erase_ne heq]
      exact h.gone hd j (by simpa [heq] using hj) hj'

theorem skip (h : Shrunk D old kvs gone t) (hk : D → k ∉ wanted kvs → k ∉ t) :
    Shrunk D old kvs (gone ++ [k]) t := by
  refine ⟨h.written, h.rest, ?_⟩
  intro hd j hj hj'
  rcases List.mem_append.mp hj with hj | hj
  · exact h.gone hd j hj hj'
  · rw [List.mem_singleton.mp hj] at hj' ⊢
    exact AList.lookup_eq_none.mpr (hk hd hj')

theorem full (h : Shrunk D old kvs gone t) : ∀ k ∈ wanted kvs, k ∈ t := by
  intro k hk
  rw [← AList.lookup_isSome, h.written k hk]
  exact lastValue_isSome.mpr hk

theorem holds (h : Shrunk D old kvs gone t) (hd : D) (hall : ∀ k ∈ old, k ∈ gone) :
    Holds kvs t := by
  intro k
  by_cases hk : k ∈ wanted kvs
  · exact h.written k hk
  · rw [lastValue_eq_none.mpr hk]
    rcases h.rest k hk with hnone | hold
    · exact hnone
    · by_cases hmem : k ∈ old
      · exact h.gone hd k (hall k hmem) hk
      · rw [hold]
        exact AList.lookup_eq_none.mpr hmem

end Shrunk

end Loops

end Marlin.Library.Table
