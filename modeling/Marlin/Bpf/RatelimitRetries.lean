import Mathlib.Algebra.BigOperators.Group.Finset.Piecewise
import Mathlib.Algebra.BigOperators.Ring.Finset
import Mathlib.Algebra.Order.BigOperators.Group.Finset
import Marlin.Bpf.RatelimitCpus

/-!
# Clock readings and retries

Whatever the interleaving, a CPU reads the clock after the state that it measures, so no time
ever seems to run backwards.  And an exchange fails only where another CPU's has succeeded
since the state was read, so admissions by exhaustion are paid for by exchanges.
-/

namespace Marlin.RlCpus

open Marlin.Library

variable {Cpu : Type}

/-! ## Time never runs backwards -/

/-- The arguments `old` and `now` where the next step of a CPU calls `rl_spend`. -/
def spendCall (burst : UInt64) (s : RlCpus Cpu) (c : Cpu) : Option (UInt64 × UInt64) :=
  match s.pcs c with
  | .missClock => some ((rlTick s.ns <<< 32) ||| burst, rlTick s.ns)
  | .clock _ (_ + 1) old => some (old, rlTick s.ns)
  | .lookup | .insert _ _ | .read _ | .clock _ 0 _ | .swap _ _ _ _ _ => none

theorem Timely.spendCall {rate burst : UInt64} {s : RlCpus Cpu} (h : s.Timely rate burst)
    (hburst : burst.toNat < 2 ^ 32) (hclock : s.tick < 2 ^ 32) {c : Cpu} {old now : UInt64}
    (hcall : s.spendCall burst c = some (old, now)) :
    rlStamp old ≤ now.toNat ∧ now.toNat = s.tick := by
  have hnow : (rlTick s.ns).toNat = s.tick := rlTick_toNat hclock
  have hpc := h.pcs c
  unfold RlCpus.spendCall at hcall
  split at hcall
  · cases hcall
    rw [shiftLeft_or_eq_rlWord (by omega) hburst, rlStamp_rlWord (by omega) hburst]
    exact ⟨Nat.le_refl _, hnow⟩
  · next hat =>
    cases hcall
    rw [hat] at hpc
    exact ⟨hnow.symm ▸ hpc, hnow⟩
  all_goals contradiction

variable [DecidableEq Cpu]

/-- In no interleaving does a call of `rl_spend` see a time before the stamp it is given. -/
theorem meter_forward (refill burst ns : Nat) (events : List (RlEvent Cpu))
    (hrefill : refill < 2 ^ 32) (hburst : burst < 2 ^ 32)
    (hclock : (meter refill burst ns events).tick < 2 ^ 32) (c : Cpu) (old now : UInt64)
    (hcall : (meter refill burst ns events).spendCall (UInt64.ofNat burst) c = some (old, now)) :
    (old >>> 32).toNat ≤ now.toNat ∧ ¬ now.toInt64 - (old >>> 32).toInt64 < 0 := by
  have hcap := toNat_ofNat_lt hburst
  obtain ⟨hstamp, hnow⟩ :=
    (meter_timely hrefill hburst hclock).spendCall hcap hclock hcall
  have hlt := rlStamp_lt old
  rw [← toNat_shiftRight_stamp] at hstamp hlt
  refine ⟨hstamp, ?_⟩
  rw [elapsed_neg_iff (by omega) hlt]
  omega

theorem meter_forward_raced :
    let events : List (RlEvent Bool) :=
      List.replicate 6 (.cpu false false) ++ List.replicate 4 (.cpu true false) ++
        [.cpu false false, .elapse (2 ^ 20)]
    ∃ old, (meter 256 512 0 events).spendCall 512 false = some (old, 1) ∧
      (old >>> 32).toNat ≤ 1 := by
  intro events
  refine ⟨0, by decide +kernel, ?_⟩
  exact (meter_forward 256 512 0 events (by decide) (by decide) (by decide +kernel) false 0 1
    (by decide +kernel)).1

end Marlin.RlCpus

/-! ## Failed exchanges are charged to successful ones -/

namespace Marlin

/-- The exchanges that the call under way has lost, with the one that it is bound to lose. -/
def RlPc.lost (cells : Nat → UInt64) : RlPc → Nat
  | .lookup | .missClock | .insert _ _ | .read _ => 0
  | .clock cell attempts old => (rlCasRetries - attempts) + if cells cell = old then 0 else 1
  | .swap cell attempts old _ _ =>
      (rlCasRetries - (attempts + 1)) + if cells cell = old then 0 else 1

def RlPc.Hit : RlPc → Prop
  | .missClock | .insert _ _ => False
  | .lookup | .read _ | .clock _ _ _ | .swap _ _ _ _ _ => True

theorem RlPc.lost_update (cells : Nat → UInt64) (i : Nat) (word : UInt64) (pc : RlPc) :
    pc.lost (Function.update cells i word) ≤ pc.lost cells + 1 := by
  cases pc with
  | lookup => exact Nat.zero_le _
  | missClock => exact Nat.zero_le _
  | insert now fresh => exact Nat.zero_le _
  | read cell => exact Nat.zero_le _
  | clock cell attempts old =>
      simp only [lost]
      split <;> split <;> omega
  | swap cell attempts old now next =>
      simp only [lost]
      split <;> split <;> omega

namespace RlCpus

variable {Cpu : Type} {rate burst : UInt64}

def admits (s : RlCpus Cpu) (how : RlAdmit) : Nat := s.log.countP fun a => a.how == how

def hot (Cpu : Type) (ns : Nat) (word : UInt64) : RlCpus Cpu :=
  ⟨ns, fun _ => word, 1, some 0, fun _ => .lookup, []⟩

theorem Moves.lost {s : RlCpus Cpu} {pc pc' : RlPc} (hmove : Moves rate burst s pc pc')
    (hhit : s.bucket ≠ none) (hpc : pc.Hit) :
    pc'.Hit ∧ pc'.lost s.cells ≤ pc.lost s.cells := by
  cases hmove with
  | missed hmiss => exact absurd hmiss hhit
  | found hbucket => exact ⟨trivial, Nat.le_refl _⟩
  | freshDropped hspend => exact hpc.elim
  | freshSpent hspend => exact hpc.elim
  | loaded cell => simp [RlPc.Hit, RlPc.lost]
  | dropped cell attempts hspend => exact ⟨trivial, Nat.zero_le _⟩
  | spent cell attempts hspend => exact ⟨trivial, Nat.le_refl _⟩
  | raced attempts now next hrace =>
      refine ⟨trivial, ?_⟩
      simp only [RlPc.lost, hrace, if_true, if_false]
      omega

variable [Fintype Cpu]

/-- Every exchange that a CPU lost is charged to an exchange of another CPU: with its own
exchanges, what it lost in its exhausted calls and in the present one is no more than all that
succeeded. -/
structure Charged (s : RlCpus Cpu) : Prop where
  hit : s.bucket ≠ none
  pcs : ∀ c, (s.pcs c).Hit
  paid : ∃ exhausted exchanged : Cpu → Nat,
    ∑ c, exhausted c = s.admits .casExhausted ∧ ∑ c, exchanged c = s.admits .exchanged ∧
    ∀ c, exhausted c * rlCasRetries + (s.pcs c).lost s.cells + exchanged c ≤ s.admits .exchanged

theorem charged_hot (ns : Nat) (word : UInt64) : (hot Cpu ns word).Charged where
  hit := by simp [hot]
  pcs _ := trivial
  paid := ⟨fun _ => 0, fun _ => 0, by simp [hot, admits], by simp [hot, admits],
    fun _ => by simp [hot, admits, RlPc.lost]⟩

omit [Fintype Cpu] in
theorem admits_letIn [DecidableEq Cpu] (s : RlCpus Cpu) (c : Cpu) (how : RlAdmit) (now : UInt64)
    (other : RlAdmit) :
    (s.letIn c how now).admits other = s.admits other + if how = other then 1 else 0 := by
  simp [admits, letIn, goto, List.countP_cons]

variable [DecidableEq Cpu]

private theorem sum_bump (f : Cpu → Nat) (c : Cpu) :
    ∑ d, Function.update f c (f c + 1) d = ∑ d, f d + 1 := by
  have hbump : ∀ d, Function.update f c (f c + 1) d = f d + if d = c then 1 else 0 := by
    intro d
    by_cases heq : d = c
    · simp [heq]
    · simp [heq]
  simp only [hbump, Finset.sum_add_distrib, Finset.sum_ite_eq', Finset.mem_univ, if_true]

theorem CpuStep.charged {s t : RlCpus Cpu} {c : Cpu} {insertFails : Bool}
    (hstep : CpuStep rate burst s c insertFails t) (h : s.Charged) : t.Charged := by
  obtain ⟨hhit, hpcs, exhausted, exchanged, hsumE, hsumX, hpaid⟩ := h
  have hgone : ∀ d, d ≠ c → ∀ pc, Function.update s.pcs c pc d = s.pcs d :=
    fun d hd pc => Function.update_of_ne hd _ _
  have hreturn : ∀ d, (Function.update s.pcs c .lookup d).Hit :=
    (Function.forall_update_iff s.pcs fun _ pc => pc.Hit).mpr ⟨trivial, fun d _ => hpcs d⟩
  cases hstep with
  | @move pc hmove =>
      obtain ⟨hpc, hless⟩ := hmove.lost hhit (hpcs c)
      refine ⟨hhit, ?_, exhausted, exchanged, hsumE, hsumX, ?_⟩
      · exact (Function.forall_update_iff s.pcs fun _ pc => pc.Hit).mpr ⟨hpc, fun d _ => hpcs d⟩
      · intro d
        have hd := hpaid d
        by_cases heq : d = c
        · subst heq
          simp only [goto, Function.update_self, admits] at hd ⊢
          omega
        · change _ + (Function.update s.pcs c pc d).lost s.cells + _ ≤ s.admits .exchanged
          rw [hgone d heq]
          exact hd
  | insertFailed hpc hfail =>
      have hmiss := hpcs c
      rw [hpc] at hmiss
      exact hmiss.elim
  | inserted hpc hok =>
      have hmiss := hpcs c
      rw [hpc] at hmiss
      exact hmiss.elim
  | @exhausted cell old hpc =>
      -- all attempts of the call are on the CPU's account
      have hall := hpaid c
      rw [hpc, RlPc.lost, Nat.sub_zero] at hall
      refine ⟨hhit, hreturn, Function.update exhausted c (exhausted c + 1), exchanged, ?_, ?_, ?_⟩
      · rw [sum_bump, hsumE, admits_letIn, if_pos rfl]
      · rw [hsumX, admits_letIn, if_neg (by decide), Nat.add_zero]
      · intro d
        rw [admits_letIn, if_neg (by decide), Nat.add_zero]
        have hd := hpaid d
        by_cases heq : d = c
        · subst heq
          simp only [letIn, goto, Function.update_self, RlPc.lost, Nat.succ_mul]
          omega
        · simp only [letIn, goto, hgone d heq, Function.update_of_ne heq]
          exact hd
  | @exchanged cell attempts old now next hpc hcell =>
      refine ⟨hhit, hreturn, exhausted, Function.update exchanged c (exchanged c + 1), ?_, ?_, ?_⟩
      · rw [hsumE, admits_letIn, if_neg (by decide), Nat.add_zero]
        rfl
      · rw [sum_bump, hsumX, admits_letIn, if_pos rfl]
        rfl
      · intro d
        rw [admits_letIn, if_pos rfl]
        have hsame : (s.swapCell cell next).admits .exchanged = s.admits .exchanged := rfl
        have hd := hpaid d
        rw [hsame]
        by_cases heq : d = c
        · subst heq
          simp only [letIn, goto, swapCell, Function.update_self, RlPc.lost]
          omega
        · have hwrite := (s.pcs d).lost_update s.cells cell next
          simp only [letIn, goto, swapCell, hgone d heq, Function.update_of_ne heq]
          omega

theorem run_charged {s : RlCpus Cpu} (h : s.Charged) (events : List (RlEvent Cpu)) :
    (run rate burst s events).Charged := by
  induction events generalizing s with
  | nil => exact h
  | cons e events ih =>
      apply ih
      cases e with
      | elapse ns => exact ⟨h.hit, h.pcs, h.paid⟩
      | cpu c insertFails => exact (s.stepCpu_cpuStep _ _ c insertFails).charged h

omit [DecidableEq Cpu] in
theorem Charged.exhausted_le {s : RlCpus Cpu} (h : s.Charged) :
    s.admits .casExhausted * rlCasRetries ≤ (Fintype.card Cpu - 1) * s.admits .exchanged := by
  obtain ⟨exhausted, exchanged, hsumE, hsumX, hpaid⟩ := h.paid
  have hall : s.admits .casExhausted * rlCasRetries + s.admits .exchanged ≤
      Fintype.card Cpu * s.admits .exchanged := by
    calc s.admits .casExhausted * rlCasRetries + s.admits .exchanged
        = ∑ c, (exhausted c * rlCasRetries + exchanged c) := by
          rw [Finset.sum_add_distrib, ← Finset.sum_mul, hsumE, hsumX]
      _ ≤ ∑ _c : Cpu, s.admits .exchanged := by
          apply Finset.sum_le_sum
          intro c _
          have hc := hpaid c
          omega
      _ = Fintype.card Cpu * s.admits .exchanged := by simp
  rw [Nat.sub_mul, Nat.one_mul]
  omega

/-- Admissions by exhaustion are paid for by exchanges of other CPUs; and a call that finds less
than one token in the state it first reads is over with the clock reading, without an exchange
and without an admission. -/
theorem run_hot_exhausted (refill burst ns : Nat) (hrefill : refill < 2 ^ 32)
    (hburst : burst < 2 ^ 32) (word : UInt64) (events : List (RlEvent Cpu)) :
    let s := run (UInt64.ofNat refill) (UInt64.ofNat burst) (hot Cpu ns word) events
    s.admits .casExhausted * rlCasRetries ≤ (Fintype.card Cpu - 1) * s.admits .exchanged ∧
      ∀ c cell old, s.pcs c = .clock cell rlCasRetries old →
        rlLevel old (rlTick s.ns).toNat refill burst < 2 ^ rlTokenShift →
          ∀ insertFails, s.step (UInt64.ofNat refill) (UInt64.ofNat burst) (.cpu c insertFails) =
            s.goto c .lookup := by
  intro s
  refine ⟨(run_charged (charged_hot ns word) events).exhausted_le, ?_⟩
  intro c cell old hpc hshort insertFails
  have hnow : (rlTick s.ns).toNat < 2 ^ 32 := by
    rw [rlTick, toNat_and_stateMask]
    exact Nat.mod_lt _ (by decide)
  have hspend : rlSpend old (rlTick s.ns) (UInt64.ofNat refill) (UInt64.ofNat burst) = none := by
    rw [rlSpend_eq hnow (toNat_ofNat_lt hrefill) (toNat_ofNat_lt hburst), UInt64.toNat_ofNat',
      UInt64.toNat_ofNat', Nat.mod_eq_of_lt (by omega), Nat.mod_eq_of_lt (by omega),
      if_pos hshort]
  obtain ⟨n, hretries⟩ : ∃ n, rlCasRetries = n + 1 := ⟨_, rfl⟩
  rw [hretries] at hpc
  simp only [step, stepCpu, hpc, hspend]

theorem run_hot_exhausted_pair :
    let taken : List (RlEvent Bool) := List.replicate 4 (.cpu true false)
    let lost : List (RlEvent Bool) := .cpu false false :: taken ++ [.cpu false false]
    let events := List.replicate 2 (.cpu false false) ++
      (List.replicate rlCasRetries lost).flatten ++ [.cpu false false]
    let s := run (UInt64.ofNat 256) (UInt64.ofNat 0xffffff) (hot Bool 0 0xffffff) events
    s.admits .casExhausted = 1 ∧ rlCasRetries ≤ s.admits .exchanged := by
  intro taken lost events s
  have hone : s.admits .casExhausted = 1 := by decide +kernel
  have hpaid : s.admits .casExhausted * rlCasRetries ≤
      (Fintype.card Bool - 1) * s.admits .exchanged :=
    (run_hot_exhausted 256 0xffffff 0 (by decide) (by decide) 0xffffff events).1
  rw [hone, Fintype.card_bool] at hpaid
  exact ⟨hone, by omega⟩

end RlCpus

end Marlin
