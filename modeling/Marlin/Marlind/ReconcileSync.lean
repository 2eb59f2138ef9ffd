import Marlin.Library.Sync
import Marlin.Marlind.ReconcileBlocks

/-!
# Bringing a map to a list of pairs

The loops of the reconciler over a keyed map: reading all of its keys, writing the
pairs that are wanted, and deleting the keys that are not.  `F` is whatever holds of
the rest of the maps, and `D` stands for what makes the deletions complete.
-/

namespace Marlin

open Marlin.Library Marlin.Library.Table

def TableRef.Lawful {K V : Type} (ref : TableRef K V) : Prop :=
  ∀ table s, ref.get (ref.set table s) = table

def Env.HonestDeletes (e : Env) : Prop :=
  ∀ n errno, e.deleteFault n = some errno → errno ≠ .enoent

section

variable {K V α : Type} [DecidableEq K] (ref : TableRef K V) {e : Env} {G D : Prop}
  {F : Maps → Prop} {R : Maps → Maps → Prop}

/-! ## Enumeration -/

private theorem collectKeys_from (hread : ∀ n, e.readFault ref.name n = none) (start : Maps)
    {S : Maps → Prop} (room i : Nat) (prev : Option K)
    (hroom : (ref.get start).keys.length ≤ room + i)
    (hprev : (ref.get start).nextKey prev = (ref.get start).keys[i]?) :
    Triple e (fun s => s = start) (ref.collectKeys room prev) R S
      (fun keys s => keys = (ref.get start).keys.drop i ∧ s = start) := by
  induction room generalizing i prev with
  | zero =>
      refine Triple.pure fun s hs => ⟨?_, hs⟩
      rw [List.drop_of_length_le (by omega)]
  | succ room ih =>
      refine Triple.bind (M := fun answer s => s = start ∧
        answer = ((ref.get start).keys[i]?).elim (.error .enoent) .ok) (Triple.look ?_)
        fun answer => ?_
      · rintro n s rfl
        rw [hread n]
        refine ⟨rfl, ?_⟩
        cases hkey : (ref.get s).keys[i]? with
        | none => simp only [hprev, hkey, Option.elim]
        | some key => simp only [hprev, hkey, Option.elim]
      cases hnext : (ref.get start).keys[i]? with
      | none =>
          refine Triple.byStore fun s hs => ?_
          obtain ⟨rfl, rfl⟩ := hs
          refine Triple.pure fun s hs => ⟨?_, hs⟩
          rw [List.drop_of_length_le (List.getElem?_eq_none_iff.mp hnext)]
      | some key =>
          obtain ⟨hlt, hkey⟩ := List.getElem?_eq_some_iff.mp hnext
          refine Triple.byStore fun s hs => ?_
          obtain ⟨rfl, rfl⟩ := hs
          have hstep : (ref.get s).nextKey (some key) = (ref.get s).keys[i + 1]? := by
            rw [← hkey]
            exact nextKey_getElem _ hlt
          refine Triple.bind (ih (i + 1) (some key) (by omega) hstep) fun rest => ?_
          refine Triple.pure fun s' hs => ⟨?_, hs.2⟩
          rw [hs.1, List.drop_eq_getElem_cons hlt, hkey]

/-- The keys are read without a write, and all of them where `D` holds. -/
theorem TableRef.collectKeys_complete {S : Maps → Prop} (old : Table K V) {room : Nat}
    (hD : D → (∀ n, e.readFault ref.name n = none) ∧ old.keys.length ≤ room) :
    Triple e (fun s => F s ∧ ref.get s = old) (ref.collectKeys room none) R S
      (fun keys s => (D → ∀ k ∈ old, k ∈ keys) ∧ F s ∧ ref.get s = old) := by
  by_cases hd : D
  · obtain ⟨hread, hroom⟩ := hD hd
    refine Triple.byStore fun start hstart => ?_
    obtain ⟨hF, rfl⟩ := hstart
    refine Triple.post (collectKeys_from ref hread start room 0 none hroom rfl) ?_
    rintro keys s ⟨hkeys, rfl⟩
    refine ⟨fun _ k hk => ?_, hF, rfl⟩
    rw [hkeys]
    exact hk
  · refine Triple.post (P := fun s => F s ∧ ref.get s = old) ?_
      fun keys s hs => ⟨fun h => absurd h hd, hs⟩
    generalize (none : Option K) = prev
    induction room generalizing prev with
    | zero => exact Triple.pure fun s hs => hs
    | succ room ih =>
        refine Triple.bind (M := fun _ s => F s ∧ ref.get s = old)
          (Triple.look fun n s hs => hs) fun answer => ?_
        cases answer with
        | error errno => exact Triple.pure fun s hs => hs
        | ok key =>
            exact Triple.bind (ih (fun h => absurd h hd) (some key)) fun rest =>
              Triple.pure fun s hs => hs

/-- A map that cannot be enumerated looks empty. -/
theorem TableRef.collectKeys_blind {S : Maps → Prop} {room : Nat}
    (hblind : ∀ n, e.readFault ref.name n ≠ none) :
    Triple e F (ref.collectKeys room none) R S (fun keys s => keys = [] ∧ F s) := by
  cases room with
  | zero => exact Triple.pure fun s hs => ⟨rfl, hs⟩
  | succ room =>
      refine Triple.bind (M := fun answer s => (∃ errno, answer = .error errno) ∧ F s)
        (Triple.look fun n s hs => ⟨?_, hs⟩) fun answer => Triple.assume ?_
      · obtain ⟨errno, herrno⟩ := Option.ne_none_iff_exists'.mp (hblind n)
        exact ⟨errno, by rw [herrno]⟩
      · rintro ⟨errno, rfl⟩
        exact Triple.pure fun s hs => ⟨rfl, hs⟩

/-! ## Writing the pairs -/

def TableRef.updateAll (pair : α → K × V) (text : α → String) :
    List α → Reconcile Unit :=
  Stepwise.forEach fun x => do
    match ← ref.updateElem (pair x).1 (pair x).2 with
    | none => pure ()
    | some errno => failErrno (text x) errno

theorem TableRef.updateAll_triple (href : ref.Lawful) (hsmooth : G → e.Smooth)
    (hF : ∀ table s, F s → F (ref.set table s)) (old : Table K V) {pair : α → K × V}
    {text : α → String} {xs : List α}
    (hR : ∀ table s, F s → SyncStep ref.maxEntries (xs.map pair) (ref.get s) table →
      R s (ref.set table s))
    (hfits : G → xs ≠ [] → Fits old (xs.map pair) ref.maxEntries) :
    Triple e (fun s => F s ∧ ref.get s = old) (ref.updateAll pair text xs) R (fun _ => ¬G)
      (fun _ s => F s ∧ Grown old (xs.map pair) (ref.get s) ∧
        (old.keys.length ≤ ref.maxEntries → (ref.get s).keys.length ≤ ref.maxEntries)) := by
  let J : List α → Maps → Prop := fun done s => F s ∧ Grown old (done.map pair) (ref.get s) ∧
    (old.keys.length ≤ ref.maxEntries → (ref.get s).keys.length ≤ ref.maxEntries)
  refine Triple.pre (Triple.forEach (J := J) xs ?_) ?_
  · intro done x rest hxs
    have hpair : pair x ∈ xs.map pair := List.mem_map_of_mem (by simp [hxs])
    have hdone : ∀ k ∈ wanted (done.map pair), k ∈ wanted (xs.map pair) := by
      intro k hk
      rw [hxs, List.map_append, wanted_append]
      exact List.mem_append_left _ hk
    refine Triple.bind (ref.updateElem_triple (Q := J (done ++ [x])) hsmooth ?_ ?_ ?_)
      fun answer => ?_
    · intro s slot hs hroom
      exact hR _ s hs.1 (.insert slot (pair x) hpair hroom rfl)
    · intro s slot hs hroom
      refine ⟨hF _ s hs.1, ?_, ?_⟩
      · rw [List.map_append, href]
        exact hs.2.1.snoc slot
      · intro hlen
        have hbound := hs.2.2 hlen
        rw [href, length_update]
        split
        · exact hbound
        · rename_i hnew
          exact hroom hnew
    · intro g s hs hnew
      exact (hs.2.1.between hdone).room (hfits g (by simp [hxs])) (List.mem_map_of_mem hpair) hnew
    · cases answer with
      | none => exact Triple.pure fun s hs => hs.1 rfl
      | some errno => exact failErrno_triple fun s hs => hs.2 (by simp)
  · rintro s ⟨hs, rfl⟩
    exact ⟨hs, Grown.nil _, fun h => h⟩

/-! ## Deleting the rest -/

/-- Delete the keys that are not kept; a key that is not there is fine. -/
def TableRef.deleteStale (kept : K → Bool) (text : K → String) :
    List K → Reconcile Unit :=
  Stepwise.forEach fun key => do
    if kept key then pure ()
    else do
      match ← ref.deleteElem key with
      | none => pure ()
      | some errno =>
          if errno = .enoent then pure ()
          else failErrno (text key) errno

theorem TableRef.deleteStale_triple (href : ref.Lawful) (hsmooth : G → e.Smooth)
    (hhonest : D → e.HonestDeletes) (hF : ∀ table s, F s → F (ref.set table s))
    (old : Table K V) {kvs : List (K × V)} {kept : K → Bool} {text : K → String}
    (hkept : ∀ k, kept k = true ↔ k ∈ wanted kvs)
    (hR : ∀ table s, F s → SyncStep ref.maxEntries kvs (ref.get s) table →
      R s (ref.set table s))
    (existing : List K) :
    Triple e (fun s => F s ∧ Shrunk D old kvs [] (ref.get s))
      (ref.deleteStale kept text existing) R (fun _ => ¬G)
      (fun _ s => F s ∧ Shrunk D old kvs existing (ref.get s)) := by
  refine Triple.forEach (J := fun gone s => F s ∧ Shrunk D old kvs gone (ref.get s)) existing ?_
  intro gone key rest hexisting
  refine Triple.ite ?_ ?_
  · intro hwanted
    exact Triple.pure fun s hs => ⟨hs.1, hs.2.skip fun _ hk => absurd ((hkept key).mp hwanted) hk⟩
  · intro hstale
    have hkey : key ∉ wanted kvs := fun h => hstale ((hkept key).mpr h)
    refine Triple.bind (ref.deleteElem_triple
      (Q := fun s => F s ∧ Shrunk D old kvs (gone ++ [key]) (ref.get s)) hsmooth ?_ ?_ ?_)
      fun answer => ?_
    · intro s hs
      exact hR _ s hs.1 (.erase key hkey hs.2.full rfl)
    · intro s hs
      rw [href]
      exact ⟨hF _ s hs.1, hs.2.erase hkey⟩
    · intro s hs hmem
      exact ⟨hs.1, hs.2.skip fun _ _ => hmem⟩
    · cases answer with
      | none => exact Triple.pure fun s hs => hs.1 rfl
      | some errno =>
          refine Triple.ite ?_ ?_
          · intro henoent
            refine Triple.pure fun s hs => ?_
            rcases hs.2 errno rfl with h | ⟨hold, -, n, hfault⟩
            · exact h.1
            · -- a delete that failed with this errno left the key where it was
              exact ⟨hold.1, hold.2.skip fun hd => absurd henoent (hhonest hd n errno hfault)⟩
          · intro hne
            exact failErrno_triple fun s hs =>
              ((hs.2 errno rfl).resolve_left fun h => hne h.2).2.1

end

end Marlin
