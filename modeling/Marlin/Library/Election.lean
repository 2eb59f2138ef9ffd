import Mathlib.Data.Nat.Basic
import Mathlib.Order.Lattice
import Mathlib.Data.List.Perm.Basic

/-!
# Elections

The first best element of a list in one left-to-right scan: the highest score
wins and a tie goes to the lowest identifier.  The winner's identifier depends
on the set of candidates only, not on the order in which they are scanned.
-/

namespace Marlin.Library

section Election

variable {α S : Type} [LinearOrder S] (score : α → S) (ident : α → Nat)

def Beats (a b : α) : Prop :=
  score b < score a ∨ (score a = score b ∧ ident a < ident b)

instance (a b : α) : Decidable (Beats score ident a b) :=
  inferInstanceAs (Decidable (_ ∨ _))

def electStep (best : Option α) (a : α) : Option α :=
  match best with
  | none => some a
  | some b => if Beats score ident a b then some a else some b

def elect (candidates : List α) : Option α :=
  candidates.foldl (electStep score ident) none

variable {score ident}

theorem not_beats_trans {a b c : α} (hab : ¬Beats score ident a b)
    (hbc : ¬Beats score ident b c) : ¬Beats score ident a c := by
  simp only [Beats, not_or, not_lt, not_and] at hab hbc ⊢
  refine ⟨hab.1.trans hbc.1, ?_⟩
  intro hac
  have hbc' : score b = score c := le_antisymm hbc.1 (hac ▸ hab.1)
  have hab' : score a = score b := hac.trans hbc'.symm
  exact (hbc.2 hbc').trans (hab.2 hab')

theorem not_beats_self (a : α) : ¬Beats score ident a a := by
  simp [Beats]

theorem Beats.asymm {a b : α} (h : Beats score ident a b) :
    ¬Beats score ident b a := by
  simp only [Beats] at h ⊢
  rcases h with h | ⟨h, hid⟩
  · simp [h.not_gt, h.ne]
  · simp [h, hid.le]

private theorem foldl_electStep (xs : List α) (b : α) :
    ∃ a, xs.foldl (electStep score ident) (some b) = some a ∧ a ∈ b :: xs ∧
      ∀ c ∈ b :: xs, ¬Beats score ident c a := by
  induction xs generalizing b with
  | nil => exact ⟨b, rfl, by simp, by simp [not_beats_self]⟩
  | cons x xs ih =>
      by_cases h : Beats score ident x b
      · obtain ⟨a, hfold, hmem, hmax⟩ := ih x
        refine ⟨a, by simp [electStep, h, hfold], List.mem_cons_of_mem b hmem, ?_⟩
        intro c hc
        rcases List.mem_cons.mp hc with rfl | hc
        · exact not_beats_trans h.asymm (hmax x (by simp))
        · exact hmax c hc
      · obtain ⟨a, hfold, hmem, hmax⟩ := ih b
        refine ⟨a, by simp [electStep, h, hfold], ?_, ?_⟩
        · rcases List.mem_cons.mp hmem with rfl | hmem
          · simp
          · simp [hmem]
        · intro c hc
          rcases List.mem_cons.mp hc with rfl | hc
          · exact hmax c (by simp)
          · rcases List.mem_cons.mp hc with rfl | hc
            · exact not_beats_trans h (hmax b (by simp))
            · exact hmax c (by simp [hc])

variable (score ident) in
/-- A scan of a nonempty list elects a member that no member beats. -/
theorem elect_spec {xs : List α} (hne : xs ≠ []) :
    ∃ a, elect score ident xs = some a ∧ a ∈ xs ∧
      ∀ c ∈ xs, ¬Beats score ident c a := by
  cases xs with
  | nil => exact absurd rfl hne
  | cons x xs => exact foldl_electStep xs x

@[simp] theorem elect_nil : elect score ident [] = none := rfl

theorem ident_eq_of_not_beats {a b : α} (hab : ¬Beats score ident a b)
    (hba : ¬Beats score ident b a) : ident a = ident b := by
  simp only [Beats, not_or, not_lt, not_and] at hab hba
  have hscore : score a = score b := le_antisymm hab.1 hba.1
  exact le_antisymm (hba.2 hscore.symm) (hab.2 hscore)

/-- The order of the candidates does not matter to who wins. -/
theorem elect_perm {xs ys : List α} (h : xs.Perm ys) :
    (elect score ident xs).map ident = (elect score ident ys).map ident := by
  by_cases hne : xs = []
  · subst hne
    rw [h.nil_eq]
  · obtain ⟨a, ha, hamem, hamax⟩ := elect_spec score ident hne
    have hne' : ys ≠ [] := fun hys => hne (by subst hys; exact h.eq_nil)
    obtain ⟨b, hb, hbmem, hbmax⟩ := elect_spec score ident hne'
    rw [ha, hb]
    exact congrArg some (ident_eq_of_not_beats (hbmax a (h.mem_iff.mp hamem))
      (hamax b (h.mem_iff.mpr hbmem)))

variable (score ident) in
theorem elect_of_not_beaten {xs : List α} {a : α} (ha : a ∈ xs)
    (hmax : ∀ c ∈ xs, ¬Beats score ident c a) :
    (elect score ident xs).map ident = some (ident a) := by
  obtain ⟨b, hb, hbmem, hbmax⟩ := elect_spec score ident (List.ne_nil_of_mem ha)
  rw [hb, Option.map_some]
  exact congrArg some (ident_eq_of_not_beats (hmax b hbmem) (hbmax a ha))

theorem elect_subset {xs ys : List α} {a : α} (hsub : ys ⊆ xs)
    (h : elect score ident xs = some a) (ha : a ∈ ys) :
    (elect score ident ys).map ident = some (ident a) := by
  apply elect_of_not_beaten _ _ ha
  intro c hc
  obtain ⟨b, hb, -, hbmax⟩ := elect_spec score ident (List.ne_nil_of_mem (hsub ha))
  obtain rfl : b = a := Option.some.inj (hb.symm.trans h)
  exact hbmax c (hsub hc)

/-- Two lists that agree on the candidates of a kind elect the same one, where both elect one
of that kind. -/
theorem elect_agree {xs ys : List α} {p : α → Prop} (h : ∀ a, p a → (a ∈ xs ↔ a ∈ ys)) {a b : α}
    (ha : elect score ident xs = some a) (hb : elect score ident ys = some b) (hpa : p a)
    (hpb : p b) : ident a = ident b := by
  have hne : ∀ {zs : List α} {c : α}, elect score ident zs = some c → zs ≠ [] := by
    rintro zs c hc rfl
    cases hc
  obtain ⟨a', ha', hamem, hamax⟩ := elect_spec score ident (hne ha)
  obtain ⟨b', hb', hbmem, hbmax⟩ := elect_spec score ident (hne hb)
  obtain rfl : a' = a := Option.some.inj (ha'.symm.trans ha)
  obtain rfl : b' = b := Option.some.inj (hb'.symm.trans hb)
  exact ident_eq_of_not_beats (hbmax a' ((h a' hpa).mp hamem)) (hamax b' ((h b' hpb).mpr hbmem))

end Election

end Marlin.Library
