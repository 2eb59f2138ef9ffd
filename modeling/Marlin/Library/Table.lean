import Mathlib.Data.List.AList
import Mathlib.Data.List.Perm.Basic

/-!
# Keyed tables with an iteration order

A keyed table is an association list without duplicate keys whose order is the
order in which the table is iterated.  An update puts the entry wherever the
table's owner likes, so that nothing proved here depends on where that is.
-/

namespace Marlin.Library

abbrev Table (K V : Type) := AList (fun _ : K => V)

namespace Table

variable {K V : Type} [DecidableEq K]

private theorem perm_insert (slot : Nat) (k : K) (v : V) (t : Table K V) :
    ((t.erase k).entries.insertIdx (slot % ((t.erase k).entries.length + 1)) ⟨k, v⟩).Perm
      (t.insert k v).entries := by
  rw [AList.entries_insert]
  exact List.perm_insertIdx _ _
    (Nat.le_of_lt_succ (Nat.mod_lt slot (Nat.succ_pos _)))

/-- Replace or add an entry; `slot` says where in the iteration order it lands. -/
def update (slot : Nat) (k : K) (v : V) (t : Table K V) : Table K V :=
  ⟨(t.erase k).entries.insertIdx (slot % ((t.erase k).entries.length + 1)) ⟨k, v⟩,
    (List.perm_nodupKeys (perm_insert slot k v t)).mpr (t.insert k v).nodupKeys⟩

theorem lookup_update (slot : Nat) (k j : K) (v : V) (t : Table K V) :
    (update slot k v t).lookup j = if j = k then some v else t.lookup j := by
  have hperm : (update slot k v t).lookup j = (t.insert k v).lookup j :=
    AList.perm_lookup (perm_insert slot k v t)
  rw [hperm]
  by_cases h : j = k
  · subst h
    simp
  · simp [h]

@[simp] theorem lookup_update_self (slot : Nat) (k : K) (v : V) (t : Table K V) :
    (update slot k v t).lookup k = some v := by
  simp [lookup_update]

theorem lookup_erase_iff (k j : K) (t : Table K V) (v : V) :
    (t.erase k).lookup j = some v ↔ j ≠ k ∧ t.lookup j = some v := by
  by_cases h : j = k
  · subst h
    simp
  · simp [h]

@[simp] theorem mem_update (slot : Nat) (k j : K) (v : V) (t : Table K V) :
    j ∈ update slot k v t ↔ j = k ∨ j ∈ t := by
  rw [← AList.lookup_isSome, lookup_update, ← AList.lookup_isSome]
  by_cases h : j = k <;> simp [h]

/-- The key that iteration reaches after `prev`; an absent key starts over. -/
def nextKey (t : Table K V) : Option K → Option K
  | none => t.keys[0]?
  | some k => if k ∈ t.keys then t.keys[t.keys.idxOf k + 1]? else t.keys[0]?

theorem nextKey_getElem (t : Table K V) {i : Nat} (hi : i < t.keys.length) :
    t.nextKey (some t.keys[i]) = t.keys[i + 1]? := by
  have hmem : t.keys[i] ∈ t.keys := List.getElem_mem hi
  rw [nextKey, if_pos hmem, t.keys_nodup.idxOf_getElem]

theorem lookup_eq_of_mem_entries {t : Table K V} {k : K} {v : V}
    (h : ⟨k, v⟩ ∈ t.entries) : t.lookup k = some v :=
  AList.mem_lookup_iff.mpr h

end Table

end Marlin.Library
