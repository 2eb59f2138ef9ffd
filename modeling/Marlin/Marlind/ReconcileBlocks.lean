import Mathlib.Data.List.TakeWhile
import Marlin.Marlind.ReloadStep

/-!
# What the calls of the reconciler do

One rule for each call and for each function of `reconcile.c` that writes rows of
`fwd_table` or entries of `vip_map`.  `G` stands for whatever makes the rest of
the run succeed: every rule shows that a stop is impossible under `G`.
-/

namespace Marlin

open Marlin.Library

section Calls

variable {e : Env} {G : Prop} {P : Maps → Prop} {R : Maps → Maps → Prop} {α : Type}
  {Q : α → Maps → Prop}

theorem fail_triple {text : String} (h : ∀ s, P s → ¬G) :
    Triple e P (fail text : Reconcile α) R (fun _ => ¬G) Q :=
  Triple.bind (M := fun _ => P) (Triple.say fun _ hs => hs) fun _ => Triple.stop h

theorem failErrno_triple {text : String} {errno : Errno} (h : ∀ s, P s → ¬G) :
    Triple e P (failErrno text errno : Reconcile α) R (fun _ => ¬G) Q :=
  Triple.bind (M := fun _ => P) (Triple.ask fun _ hs => hs) fun _ => fail_triple h

theorem callocFails_triple (hsmooth : G → e.Smooth) :
    Triple e P callocFails R (fun _ => ¬G) (fun b s => P s ∧ (b = true → ¬G)) := by
  refine Triple.look fun n s hs => ⟨hs, ?_⟩
  intro hoom g
  rw [(hsmooth g).memory n] at hoom
  contradiction

theorem updateFwd_triple (hsmooth : G → e.Smooth) {key value : Nat} (hkey : key < maxFwdEntries)
    {Q : Maps → Prop} (hR : ∀ s, P s → R s (s.setFwd key value))
    (hQ : ∀ s, P s → Q (s.setFwd key value)) :
    Triple e P (updateFwd key value) R (fun _ => ¬G)
      (fun answer s => (answer = none → Q s) ∧ (answer ≠ none → ¬G)) := by
  refine Triple.put ?_ ?_
  · intro n s hs
    cases hfault : e.writeFault n with
    | some fault => simp [chain]
    | none => simpa [hkey, chain] using hR s hs
  · intro n s hs
    cases hfault : e.writeFault n with
    | some fault =>
        refine ⟨by simp, fun _ g => ?_⟩
        rw [(hsmooth g).writes n] at hfault
        contradiction
    | none => simpa [hkey] using hQ s hs

theorem writeFwdRow_triple (hsmooth : G → e.Smooth) {kv : Nat × Nat}
    (hkey : kv.1 < maxFwdEntries) {Q : Maps → Prop}
    (hR : ∀ s, P s → R s (s.setFwd kv.1 kv.2)) (hQ : ∀ s, P s → Q (s.setFwd kv.1 kv.2)) :
    Triple e P (writeFwdRow kv) R (fun _ => ¬G) (fun _ => Q) := by
  refine Triple.bind (updateFwd_triple hsmooth hkey hR hQ) fun answer => ?_
  cases answer with
  | none => exact Triple.pure fun s hs => hs.1 rfl
  | some errno => exact failErrno_triple fun s hs => hs.2 (by simp)

theorem TableRef.updateElem_triple {K V : Type} [DecidableEq K] (ref : TableRef K V)
    (hsmooth : G → e.Smooth) {key : K} {value : V} {Q : Maps → Prop}
    (hR : ∀ s slot, P s → (key ∉ ref.get s → (ref.get s).keys.length < ref.maxEntries) →
      R s (ref.set ((ref.get s).update slot key value) s))
    (hQ : ∀ s slot, P s → (key ∉ ref.get s → (ref.get s).keys.length < ref.maxEntries) →
      Q (ref.set ((ref.get s).update slot key value) s))
    (hroom : G → ∀ s, P s → key ∉ ref.get s → (ref.get s).keys.length < ref.maxEntries) :
    Triple e P (ref.updateElem key value) R (fun _ => ¬G)
      (fun answer s => (answer = none → Q s) ∧ (answer ≠ none → ¬G)) := by
  refine Triple.put ?_ ?_
  · intro n s hs
    cases hfault : e.writeFault n with
    | some fault => simp [chain]
    | none =>
        dsimp only
        split
        · simp [chain]
        · rename_i hroom
          have hstep := hR s (e.slot n) hs fun hnew =>
            Nat.lt_of_not_le fun hfull => hroom ⟨hnew, hfull⟩
          simpa [chain] using hstep
  · intro n s hs
    cases hfault : e.writeFault n with
    | some fault =>
        refine ⟨by simp, fun _ g => ?_⟩
        rw [(hsmooth g).writes n] at hfault
        contradiction
    | none =>
        dsimp only
        split
        · rename_i hfull
          refine ⟨by simp, fun _ g => ?_⟩
          have := hroom g s hs hfull.1
          omega
        · rename_i hroom
          refine ⟨fun _ => hQ s (e.slot n) hs fun hnew => ?_, by simp⟩
          exact Nat.lt_of_not_le fun hfull => hroom ⟨hnew, hfull⟩

theorem TableRef.deleteElem_triple {K V : Type} [DecidableEq K] (ref : TableRef K V)
    (hsmooth : G → e.Smooth) {key : K} {Q : Maps → Prop}
    (hR : ∀ s, P s → R s (ref.set ((ref.get s).erase key) s))
    (hQ : ∀ s, P s → Q (ref.set ((ref.get s).erase key) s))
    (habsent : ∀ s, P s → key ∉ ref.get s → Q s) :
    Triple e P (ref.deleteElem key) R (fun _ => ¬G)
      (fun answer s => (answer = none → Q s) ∧
        (∀ errno, answer = some errno → (Q s ∧ errno = .enoent) ∨
          (P s ∧ ¬G ∧ ∃ n, e.deleteFault n = some errno))) := by
  refine Triple.put ?_ ?_
  · intro n s hs
    cases hfault : e.deleteFault n with
    | some errno => simp [chain]
    | none =>
        dsimp only
        split
        · simpa [chain] using hR s hs
        · simp [chain]
  · intro n s hs
    cases hfault : e.deleteFault n with
    | some errno =>
        refine ⟨by simp, fun _ herrno => Or.inr ⟨hs, fun g => ?_, n, hfault.trans herrno⟩⟩
        rw [(hsmooth g).deletes n] at hfault
        contradiction
    | none =>
        dsimp only
        split
        · exact ⟨fun _ => hQ s hs, by simp⟩
        · rename_i hmem
          refine ⟨by simp, ?_⟩
          rintro errno herrno
          cases herrno
          exact Or.inl ⟨habsent s hs hmem, rfl⟩

end Calls

/-! ## Blocks of rows -/

section Blocks

variable {e : Env} {G : Prop} {P : Maps → Prop} {R : Maps → Maps → Prop}

def Written (kvs : List (Nat × Nat)) (mp : Maps) : Prop :=
  ∀ kv ∈ kvs, mp.fwdTable kv.1 = kv.2

def Functional (kvs : List (Nat × Nat)) : Prop :=
  ∀ kv ∈ kvs, ∀ kv' ∈ kvs, kv.1 = kv'.1 → kv.2 = kv'.2

private theorem written_snoc {kvs done rest : List (Nat × Nat)} {kv : Nat × Nat} {mp : Maps}
    (hfun : Functional kvs) (hkvs : kvs = done ++ kv :: rest) (h : Written done mp) :
    Written (done ++ [kv]) (mp.setFwd kv.1 kv.2) := by
  intro kv' hkv'
  by_cases hkey : kv'.1 = kv.1
  · have hvalue := hfun kv' (by simp only [hkvs]; grind) kv (by simp [hkvs]) hkey
    simp [Maps.setFwd, hkey, hvalue]
  · have hdone : kv' ∈ done := by
      rcases List.mem_append.mp hkv' with hdone | heq
      · exact hdone
      · exact absurd (congrArg Prod.fst (List.mem_singleton.mp heq)) hkey
    simpa [Maps.setFwd, Function.update_of_ne hkey] using h kv' hdone

private theorem writeFwdRows_triple (hsmooth : G → e.Smooth) {kvs : List (Nat × Nat)}
    (hfun : Functional kvs) (hrange : ∀ kv ∈ kvs, kv.1 < maxFwdEntries)
    (hstep : ∀ kv ∈ kvs, ∀ s, P s → R s (s.setFwd kv.1 kv.2) ∧ P (s.setFwd kv.1 kv.2)) :
    Triple e P (Stepwise.forEach writeFwdRow kvs) R (fun _ => ¬G)
      (fun _ s => P s ∧ Written kvs s) := by
  refine Triple.pre (Triple.forEach (J := fun done s => P s ∧ Written done s) kvs ?_)
    fun s hs => ⟨hs, by simp [Written]⟩
  intro done kv rest hkvs
  have hmem : kv ∈ kvs := by simp [hkvs]
  refine writeFwdRow_triple hsmooth (hrange kv hmem) ?_ ?_
  · exact fun s hs => (hstep kv hmem s hs.1).1
  · exact fun s hs => ⟨(hstep kv hmem s hs.1).2, written_snoc hfun hkvs hs.2⟩

theorem updateFwdBatch_triple {kvs : List (Nat × Nat)}
    (hfun : Functional kvs) (hrange : ∀ kv ∈ kvs, kv.1 < maxFwdEntries)
    (hstep : ∀ kv ∈ kvs, ∀ s, P s → R s (s.setFwd kv.1 kv.2) ∧ P (s.setFwd kv.1 kv.2)) :
    Triple e P (updateFwdBatch kvs) R (fun _ => ¬G)
      (fun answer s => P s ∧ (answer.1 = none → Written kvs s)) := by
  have hvalid : kvs.takeWhile (fun kv => kv.1 < maxFwdEntries) = kvs :=
    List.takeWhile_eq_self_iff.mpr fun kv hkv => by simpa using hrange kv hkv
  have hwritten : ∀ n s, P s →
      (∀ p ∈ chain s (s.setFwds (kvs.take n)), R p.1 p.2) ∧
        P ((s.setFwds (kvs.take n)).getLastD s) ∧
        Written (kvs.take n) ((s.setFwds (kvs.take n)).getLastD s) := by
    intro n s hs
    have hfun' : Functional (kvs.take n) := fun kv hkv kv' hkv' =>
      hfun kv (List.mem_of_mem_take hkv) kv' (List.mem_of_mem_take hkv')
    refine trail_spec (J := fun done s => P s ∧ Written done s) (kvs.take n) ?_
      ⟨hs, by simp [Written]⟩
    intro done kv rest hkvs s hs
    have hmem : kv ∈ kvs := List.mem_of_mem_take (i := n) (by simp [hkvs])
    exact ⟨(hstep kv hmem s hs.1).1, (hstep kv hmem s hs.1).2,
      written_snoc hfun' hkvs hs.2⟩
  refine Triple.put ?_ ?_
  · intro n s hs
    cases hfault : e.writeFault n with
    | some fault => simpa [hvalid] using (hwritten fault.done s hs).1
    | none => simpa [hvalid] using (hwritten kvs.length s hs).1
  · intro n s hs
    cases hfault : e.writeFault n with
    | some fault => exact ⟨by simpa [hvalid] using (hwritten fault.done s hs).2.1, by simp⟩
    | none => simpa [hvalid] using (hwritten kvs.length s hs).2

theorem fwdBlock_eq {num : Nat} (hnum : num < maxVips) (values : Nat → Nat) :
    fwdBlock num values =
      (List.range tableSize).map fun row => (fwdIndex num row, values row) := by
  refine List.map_congr_left fun row hrow => ?_
  have hlt := fwdIndex_lt hnum (List.mem_range.mp hrow)
  have hword : maxVips * tableSize < 2 ^ 32 := by decide
  change (fwdIndex num row % 2 ^ 32, values row) = _
  rw [Nat.mod_eq_of_lt (Nat.lt_trans hlt hword)]

theorem fwdBlock_functional {num : Nat} (hnum : num < maxVips) (values : Nat → Nat) :
    Functional (fwdBlock num values) := by
  rw [fwdBlock_eq hnum]
  intro kv hkv kv' hkv' hkey
  obtain ⟨row, hrow, rfl⟩ := List.mem_map.mp hkv
  obtain ⟨row', hrow', rfl⟩ := List.mem_map.mp hkv'
  rw [((fwdIndex_inj (List.mem_range.mp hrow) (List.mem_range.mp hrow')).mp hkey).2]

theorem fwdBlock_lt {num : Nat} (hnum : num < maxVips) (values : Nat → Nat) :
    ∀ kv ∈ fwdBlock num values, kv.1 < maxFwdEntries := by
  rw [fwdBlock_eq hnum]
  intro kv hkv
  obtain ⟨row, hrow, rfl⟩ := List.mem_map.mp hkv
  exact fwdIndex_lt hnum (List.mem_range.mp hrow)

theorem Written.fwdRow {num : Nat} (hnum : num < maxVips) {values : Nat → Nat} {mp : Maps}
    (h : Written (fwdBlock num values) mp) {row : Nat} (hrow : row < tableSize) :
    mp.fwdRow num row = values row := by
  rw [fwdBlock_eq hnum] at h
  exact h (fwdIndex num row, values row)
    (List.mem_map.mpr ⟨row, List.mem_range.mpr hrow, rfl⟩)

/-- A block is written row by row, in one batch or in the fallback after it. -/
theorem writeFwdBlock_triple (hsmooth : G → e.Smooth) {num : Nat} (hnum : num < maxVips)
    {values : Nat → Nat}
    (hstep : ∀ row < tableSize, ∀ s, P s →
      R s (s.setFwd (fwdIndex num row) (values row)) ∧
        P (s.setFwd (fwdIndex num row) (values row))) :
    Triple e P (writeFwdBlock num values) R (fun _ => ¬G)
      (fun _ s => P s ∧ ∀ row < tableSize, s.fwdRow num row = values row) := by
  have hfun := fwdBlock_functional hnum values
  have hrange := fwdBlock_lt hnum values
  have hsteps : ∀ kv ∈ fwdBlock num values, ∀ s, P s →
      R s (s.setFwd kv.1 kv.2) ∧ P (s.setFwd kv.1 kv.2) := by
    rw [fwdBlock_eq hnum]
    intro kv hkv
    obtain ⟨row, hrow, rfl⟩ := List.mem_map.mp hkv
    exact hstep row (List.mem_range.mp hrow)
  have hrows : ∀ s, P s ∧ Written (fwdBlock num values) s →
      P s ∧ ∀ row < tableSize, s.fwdRow num row = values row :=
    fun s hs => ⟨hs.1, fun row hrow => hs.2.fwdRow hnum hrow⟩
  refine Triple.bind (callocFails_triple hsmooth) fun oom => ?_
  cases oom with
  | true => exact fail_triple fun s hs => hs.2 rfl
  | false =>
      refine Triple.bind (Triple.pre (updateFwdBatch_triple hfun hrange hsteps)
        fun s hs => hs.1) fun answer => ?_
      refine Triple.ite ?_ ?_
      · intro hall
        exact Triple.pure fun s hs => hrows s ⟨hs.1, hs.2 hall.1⟩
      · intro _
        exact Triple.post (Triple.pre (writeFwdRows_triple hsmooth hfun hrange hsteps)
          fun s hs => hs.1) fun _ => hrows

theorem zeroFwdBlock_triple (hsmooth : G → e.Smooth) {num : Nat} (hnum : num < maxVips)
    (hstep : ∀ row < tableSize, ∀ s, P s →
      R s (s.setFwd (fwdIndex num row) marlinNoBackend) ∧
        P (s.setFwd (fwdIndex num row) marlinNoBackend)) :
    Triple e P (zeroFwdBlock num) R (fun _ => ¬G) (fun _ => P) := by
  refine Triple.bind (callocFails_triple hsmooth) fun oom => ?_
  cases oom with
  | true => exact fail_triple fun s hs => hs.2 rfl
  | false =>
      refine Triple.post (Triple.pre (writeFwdBlock_triple hsmooth hnum hstep)
        fun s hs => hs.1) fun _ s hs => hs.1

end Blocks

end Marlin
