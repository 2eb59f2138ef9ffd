import Mathlib.Data.Nat.Basic
import Mathlib.Logic.Function.Iterate

/-!
# Token buckets

A bucket holds at most `cap` tokens and gains `rate` of them in every unit of time.
The development says which lists of spending times a bucket can account for, how many of
them a window of time can hold, and that a bucket that is refilled on demand decides like
one that is refilled in every unit of time.
-/

namespace Marlin.Library

/-- The times, latest first, at which `cost` tokens were taken, with `level` tokens left
after the latest. -/
inductive Spent (cost cap rate : Nat) : List Nat → Nat → Prop
  | first (t : Nat) {level : Nat} (room : level + cost ≤ cap) : Spent cost cap rate [t] level
  | next {last : Nat} {times : List Nat} {before : Nat} (t : Nat) {level : Nat}
      (spent : Spent cost cap rate (last :: times) before) (later : last ≤ t)
      (room : level + cost ≤ cap) (paid : level + cost ≤ before + rate * (t - last)) :
      Spent cost cap rate (t :: last :: times) level

namespace Spent

variable {cost cap rate : Nat}

theorem le_latest {times : List Nat} {level : Nat} (h : Spent cost cap rate times level) :
    ∀ u ∈ times, ∀ t ∈ times.head?, u ≤ t := by
  induction h with
  | first t room => simp
  | @next last times before t level spent later room paid ih =>
      simp only [List.head?_cons, Option.mem_def, Option.some.injEq, List.mem_cons]
      rintro u hu _ rfl
      rcases hu with rfl | hu
      · exact Nat.le_refl u
      · have hlast : u ≤ last := ih u (List.mem_cons.mpr hu) last rfl
        exact Nat.le_trans hlast later

theorem take {last : Nat} {times : List Nat} {before : Nat} (t : Nat) {level : Nat}
    (h : Spent cost cap rate times before) (hlast : last ∈ times.head?) (later : last ≤ t)
    (room : level + cost ≤ cap) (paid : level + cost ≤ before + rate * (t - last)) :
    Spent cost cap rate (t :: times) level := by
  cases times with
  | nil => cases hlast
  | cons u times =>
      obtain rfl := Option.some.inj hlast
      exact .next t h later room paid

theorem since {times : List Nat} {level : Nat} (h : Spent cost cap rate times level) (a : Nat) :
    ∀ t ∈ times.head?,
      cost * times.countP (fun u => decide (a ≤ u)) + level ≤ cap + rate * (t - a) := by
  induction h with
  | @first t level room =>
      rintro _ ⟨⟩
      have hcount : List.countP (fun u => decide (a ≤ u)) [t] ≤ 1 := List.countP_le_length
      have hcost := Nat.mul_le_mul_left cost hcount
      omega
  | @next last times before t level spent later room paid ih =>
      rintro _ ⟨⟩
      have hsince := ih last rfl
      by_cases hlast : a ≤ last
      · have hat : a ≤ t := Nat.le_trans hlast later
        have hsplit : rate * (t - a) = rate * (last - a) + rate * (t - last) := by
          rw [← Nat.mul_add]
          congr 1
          omega
        rw [List.countP_cons_of_pos (by simpa using hat), Nat.mul_add, hsplit]
        omega
      · -- nothing before `t` is as late as `a`
        have hnone : (last :: times).countP (fun u => decide (a ≤ u)) = 0 := by
          rw [List.countP_eq_zero]
          intro u hu
          have hle : u ≤ last := spent.le_latest u hu last rfl
          simp only [decide_eq_true_eq]
          omega
        have hcount : List.countP (fun u => decide (a ≤ u)) (t :: last :: times) ≤ 1 := by
          rw [List.countP_cons, hnone]
          split <;> omega
        have hcost := Nat.mul_le_mul_left cost hcount
        omega

private theorem window_of_latest {times : List Nat} {level t : Nat}
    (h : Spent cost cap rate times level) (a d : Nat) (ht : t ∈ times.head?)
    (htd : t ≤ a + d) :
    cost * times.countP (fun u => decide (a ≤ u ∧ u ≤ a + d)) ≤ cap + rate * d := by
  have hsince := h.since a t ht
  have hcount : times.countP (fun u => decide (a ≤ u ∧ u ≤ a + d)) ≤
      times.countP (fun u => decide (a ≤ u)) :=
    List.countP_mono_left fun u _ hu => by simp_all
  have hcost := Nat.mul_le_mul_left cost hcount
  have hrate : rate * (t - a) ≤ rate * d := Nat.mul_le_mul_left rate (by omega)
  omega

/-- A window of length `d` sees at most a full bucket and what came in during it. -/
theorem window {times : List Nat} {level : Nat} (h : Spent cost cap rate times level)
    (a d : Nat) :
    cost * times.countP (fun u => decide (a ≤ u ∧ u ≤ a + d)) ≤ cap + rate * d := by
  induction h with
  | @first t level room =>
      by_cases ht : t ≤ a + d
      · exact window_of_latest (.first t room) a d rfl ht
      · simp [ht]
  | @next last times before t level spent later room paid ih =>
      by_cases ht : t ≤ a + d
      · exact window_of_latest (.next t spent later room paid) a d rfl ht
      · rw [List.countP_cons_of_neg (by simp [ht])]
        exact ih

end Spent

/-! ## Buckets refilled on demand -/

section Refill

variable (cost cap rate : Nat)

def refillTick (level : Nat) : Nat := min cap (level + rate)

theorem refillTick_iterate {level : Nat} (h : level ≤ cap) (n : Nat) :
    (refillTick cap rate)^[n] level = min cap (level + n * rate) := by
  induction n with
  | zero => simp [Nat.min_eq_right h]
  | succ n ih =>
      rw [Function.iterate_succ_apply', ih, refillTick, Nat.succ_mul]
      omega

/-- Which of the packets at `times` are let through by a bucket that holds `level` at `last` and
is refilled in every unit of time: those that find `cost` tokens, which they take. -/
def bucketAdmits : Nat → Nat → List Nat → List Bool
  | _, _, [] => []
  | last, level, t :: times =>
      let found := (refillTick cap rate)^[t - last] level
      if cost ≤ found then true :: bucketAdmits t (found - cost) times
      else false :: bucketAdmits t found times

/-- The same where only the last packet let through is remembered, with what it left. -/
def lazyAdmits : Nat → Nat → List Nat → List Bool
  | _, _, [] => []
  | stamp, left, t :: times =>
      let found := min cap (left + (t - stamp) * rate)
      if cost ≤ found then true :: lazyAdmits t (found - cost) times
      else false :: lazyAdmits stamp left times

/-- Refilling on demand decides like refilling all the time. -/
theorem lazyAdmits_eq {stamp left last : Nat} {times : List Nat} (hstamp : stamp ≤ last)
    (htimes : (last :: times).Pairwise (· ≤ ·)) :
    lazyAdmits cost cap rate stamp left times =
      bucketAdmits cost cap rate last (min cap (left + (last - stamp) * rate)) times := by
  induction times generalizing stamp left last with
  | nil => rfl
  | cons t times ih =>
      rw [List.pairwise_cons] at htimes
      have hlast : last ≤ t := htimes.1 t (by simp)
      have hsplit : (t - stamp) * rate = (last - stamp) * rate + (t - last) * rate := by
        rw [← Nat.add_mul]
        congr 1
        omega
      have hfound : (refillTick cap rate)^[t - last] (min cap (left + (last - stamp) * rate)) =
          min cap (left + (t - stamp) * rate) := by
        rw [refillTick_iterate cap rate (Nat.min_le_left _ _), hsplit]
        omega
      simp only [lazyAdmits, bucketAdmits, hfound]
      split
      · -- the packet leaves its own time and what is left
        have hspent := @ih t (min cap (left + (t - stamp) * rate) - cost) t (Nat.le_refl t) htimes.2
        rw [Nat.sub_self, Nat.zero_mul, Nat.add_zero,
          Nat.min_eq_right (Nat.le_trans (Nat.sub_le _ _) (Nat.min_le_left _ _))] at hspent
        rw [hspent]
      · rw [ih (Nat.le_trans hstamp hlast) htimes.2]

end Refill

end Marlin.Library
