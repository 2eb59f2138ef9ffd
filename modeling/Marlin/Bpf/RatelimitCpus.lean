import Marlin.Library.Runs
import Marlin.Library.TokenBucket
import Marlin.Bpf.Ratelimit

/-!
# Rate limiting on many CPUs

`marlin_ratelimit` as a machine of atomic steps: any number of CPUs meter packets of
one source, and each of them looks the bucket up, reads its state word, reads the
clock, exchanges the word or inserts a bucket in a step of its own.  An insert with
`BPF_ANY` puts a new element in the place of the one that is there; a CPU that holds
a pointer to the old element goes on with it.
-/

namespace Marlin

open Marlin.Library

/-- Where a CPU stands between two atomic steps. -/
inductive RlPc where
  | lookup
  | missClock
  | insert (now fresh : UInt64)
  | read (cell : Nat)
  | clock (cell attempts : Nat) (old : UInt64)
  | swap (cell attempts : Nat) (old now next : UInt64)
  deriving DecidableEq, Repr

inductive RlAdmit where
  | inserted
  | exchanged
  | insertFailed
  | casExhausted
  deriving DecidableEq, Repr

def RlAdmit.metered : RlAdmit → Bool
  | .inserted | .exchanged => true
  | .insertFailed | .casExhausted => false

/-- An admitted packet, with the tick that its last clock reading gave and the tick in
which it was let through. -/
structure RlAdmission where
  how : RlAdmit
  read : Nat
  done : Nat
  deriving DecidableEq, Repr

/-- The clock in nanoseconds, the elements that were ever in the map, the one that a lookup
finds, and the admissions, latest first. -/
structure RlCpus (Cpu : Type) where
  ns : Nat
  cells : Nat → UInt64
  allocated : Nat
  bucket : Option Nat
  pcs : Cpu → RlPc
  log : List RlAdmission

inductive RlEvent (Cpu : Type) where
  | elapse (ns : Nat)
  | cpu (c : Cpu) (insertFails : Bool)

namespace RlCpus

variable {Cpu : Type}

def start (Cpu : Type) (ns : Nat) : RlCpus Cpu :=
  ⟨ns, fun _ => 0, 0, none, fun _ => .lookup, []⟩

def tick (s : RlCpus Cpu) : Nat := s.ns >>> rlTickShift

def insertCell (s : RlCpus Cpu) (fresh : UInt64) : RlCpus Cpu :=
  { s with
    cells := Function.update s.cells s.allocated fresh
    allocated := s.allocated + 1
    bucket := some s.allocated }

def swapCell (s : RlCpus Cpu) (cell : Nat) (next : UInt64) : RlCpus Cpu :=
  { s with cells := Function.update s.cells cell next }

variable [DecidableEq Cpu]

def goto (s : RlCpus Cpu) (c : Cpu) (pc : RlPc) : RlCpus Cpu :=
  { s with pcs := Function.update s.pcs c pc }

def letIn (s : RlCpus Cpu) (c : Cpu) (how : RlAdmit) (now : UInt64) : RlCpus Cpu :=
  { s.goto c .lookup with log := ⟨how, now.toNat, s.tick⟩ :: s.log }

def stepCpu (rate burst : UInt64) (s : RlCpus Cpu) (c : Cpu) (insertFails : Bool) :
    RlCpus Cpu :=
  match s.pcs c with
  | .lookup =>
      match s.bucket with
      | none => s.goto c .missClock
      | some cell => s.goto c (.read cell)
  | .missClock =>
      let now := rlTick s.ns
      match rlSpend ((now <<< 32) ||| burst) now rate burst with
      | none => s.goto c .lookup
      | some fresh => s.goto c (.insert now fresh)
  | .insert now fresh =>
      if insertFails then s.letIn c .insertFailed now
      else (s.insertCell fresh).letIn c .inserted now
  | .read cell => s.goto c (.clock cell rlCasRetries (s.cells cell))
  | .clock _ 0 _ => s.letIn c .casExhausted (rlTick s.ns)
  | .clock cell (attempts + 1) old =>
      let now := rlTick s.ns
      match rlSpend old now rate burst with
      | none => s.goto c .lookup
      | some next => s.goto c (.swap cell attempts old now next)
  | .swap cell attempts old now next =>
      if s.cells cell = old then (s.swapCell cell next).letIn c .exchanged now
      else s.goto c (.clock cell attempts (s.cells cell))

def step (rate burst : UInt64) (s : RlCpus Cpu) : RlEvent Cpu → RlCpus Cpu
  | .elapse ns => { s with ns := s.ns + ns }
  | .cpu c insertFails => s.stepCpu rate burst c insertFails

def run (rate burst : UInt64) (s : RlCpus Cpu) (events : List (RlEvent Cpu)) : RlCpus Cpu :=
  events.foldl (step rate burst) s

/-! ## What one step can do -/

inductive Moves (rate burst : UInt64) (s : RlCpus Cpu) : RlPc → RlPc → Prop
  | missed (hmiss : s.bucket = none) : Moves rate burst s .lookup .missClock
  | found {cell : Nat} (hhit : s.bucket = some cell) : Moves rate burst s .lookup (.read cell)
  | freshDropped
      (hspend : rlSpend ((rlTick s.ns <<< 32) ||| burst) (rlTick s.ns) rate burst = none) :
      Moves rate burst s .missClock .lookup
  | freshSpent {fresh : UInt64}
      (hspend : rlSpend ((rlTick s.ns <<< 32) ||| burst) (rlTick s.ns) rate burst =
        some fresh) :
      Moves rate burst s .missClock (.insert (rlTick s.ns) fresh)
  | loaded (cell : Nat) :
      Moves rate burst s (.read cell) (.clock cell rlCasRetries (s.cells cell))
  | dropped (cell attempts : Nat) {old : UInt64}
      (hspend : rlSpend old (rlTick s.ns) rate burst = none) :
      Moves rate burst s (.clock cell (attempts + 1) old) .lookup
  | spent (cell attempts : Nat) {old next : UInt64}
      (hspend : rlSpend old (rlTick s.ns) rate burst = some next) :
      Moves rate burst s (.clock cell (attempts + 1) old)
        (.swap cell attempts old (rlTick s.ns) next)
  | raced {cell : Nat} (attempts : Nat) {old : UInt64} (now next : UInt64)
      (hrace : s.cells cell ≠ old) :
      Moves rate burst s (.swap cell attempts old now next)
        (.clock cell attempts (s.cells cell))

inductive CpuStep (rate burst : UInt64) (s : RlCpus Cpu) (c : Cpu) (insertFails : Bool) :
    RlCpus Cpu → Prop
  | move {pc : RlPc} (h : Moves rate burst s (s.pcs c) pc) :
      CpuStep rate burst s c insertFails (s.goto c pc)
  | insertFailed {now fresh : UInt64} (hpc : s.pcs c = .insert now fresh)
      (hfail : insertFails = true) :
      CpuStep rate burst s c insertFails (s.letIn c .insertFailed now)
  | inserted {now fresh : UInt64} (hpc : s.pcs c = .insert now fresh)
      (hok : insertFails = false) :
      CpuStep rate burst s c insertFails ((s.insertCell fresh).letIn c .inserted now)
  | exhausted {cell : Nat} {old : UInt64} (hpc : s.pcs c = .clock cell 0 old) :
      CpuStep rate burst s c insertFails (s.letIn c .casExhausted (rlTick s.ns))
  | exchanged {cell attempts : Nat} {old now next : UInt64}
      (hpc : s.pcs c = .swap cell attempts old now next) (hcell : s.cells cell = old) :
      CpuStep rate burst s c insertFails ((s.swapCell cell next).letIn c .exchanged now)

theorem stepCpu_cpuStep (rate burst : UInt64) (s : RlCpus Cpu) (c : Cpu)
    (insertFails : Bool) :
    CpuStep rate burst s c insertFails (s.stepCpu rate burst c insertFails) := by
  unfold stepCpu
  split
  · next hpc =>
    split
    · next hmiss => exact .move (hpc ▸ .missed hmiss)
    · next hhit => exact .move (hpc ▸ .found hhit)
  · next hpc =>
    dsimp only
    split
    · next hspend => exact .move (hpc ▸ .freshDropped hspend)
    · next hspend => exact .move (hpc ▸ .freshSpent hspend)
  · next hpc =>
    split
    · next hfail => exact .insertFailed hpc hfail
    · next hok => exact .inserted hpc (by simpa using hok)
  · next cell hpc => exact .move (hpc ▸ .loaded cell)
  · next hpc => exact .exhausted hpc
  · next cell attempts old hpc =>
    dsimp only
    split
    · next hspend => exact .move (hpc ▸ .dropped cell attempts hspend)
    · next hspend => exact .move (hpc ▸ .spent cell attempts hspend)
  · next cell attempts old now next hpc =>
    split
    · next hcell => exact .exchanged hpc hcell
    · next hrace => exact .move (hpc ▸ .raced attempts now next hrace)

theorem CpuStep.tick_eq {rate burst : UInt64} {s t : RlCpus Cpu} {c : Cpu}
    {insertFails : Bool} (h : CpuStep rate burst s c insertFails t) : t.tick = s.tick := by
  cases h <;> rfl

theorem tick_le_step (rate burst : UInt64) (s : RlCpus Cpu) (e : RlEvent Cpu) :
    s.tick ≤ (s.step rate burst e).tick := by
  cases e with
  | elapse ns =>
      simp only [step, tick, Nat.shiftRight_eq_div_pow]
      exact Nat.div_le_div_right (Nat.le_add_right _ _)
  | cpu c insertFails =>
      exact Nat.le_of_eq (s.stepCpu_cpuStep rate burst c insertFails).tick_eq.symm

end RlCpus

/-! ## Stamps and clock readings -/

/-- What holds of a CPU's own values when the clock stands at `tick`. -/
def RlPc.Timely (rate burst : UInt64) (tick : Nat) : RlPc → Prop
  | .lookup | .missClock | .read _ => True
  | .insert now fresh =>
      now.toNat ≤ tick ∧ rlSpend ((now <<< 32) ||| burst) now rate burst = some fresh
  | .clock _ _ old => rlStamp old ≤ tick
  | .swap _ _ old now next =>
      rlStamp old ≤ now.toNat ∧ now.toNat ≤ tick ∧ rlSpend old now rate burst = some next

theorem RlPc.Timely.mono {rate burst : UInt64} {tick tick' : Nat} {pc : RlPc}
    (h : pc.Timely rate burst tick) (hle : tick ≤ tick') : pc.Timely rate burst tick' := by
  cases pc with
  | lookup => trivial
  | missClock => trivial
  | read cell => trivial
  | insert now fresh => exact ⟨Nat.le_trans h.1 hle, h.2⟩
  | clock cell attempts old => exact Nat.le_trans h hle
  | swap cell attempts old now next => exact ⟨h.1, Nat.le_trans h.2.1 hle, h.2.2⟩

namespace RlCpus

variable {Cpu : Type} {rate burst : UInt64}

/-- No stamp lies ahead of the clock, neither in the map nor in a CPU's hands. -/
structure Timely (rate burst : UInt64) (s : RlCpus Cpu) : Prop where
  cells : ∀ cell, rlStamp (s.cells cell) ≤ s.tick
  pcs : ∀ c, (s.pcs c).Timely rate burst s.tick

theorem timely_start (rate burst : UInt64) (ns : Nat) :
    (start Cpu ns).Timely rate burst where
  cells cell := by
    change rlStamp 0 ≤ _
    exact Nat.zero_le _
  pcs _ := trivial

theorem Moves.timely {s : RlCpus Cpu} {pc pc' : RlPc} (hmove : Moves rate burst s pc pc')
    (h : s.Timely rate burst) (hpc : pc.Timely rate burst s.tick)
    (hclock : s.tick < 2 ^ 32) : pc'.Timely rate burst s.tick := by
  have hnow : (rlTick s.ns).toNat = s.tick := rlTick_toNat hclock
  cases hmove with
  | missed hmiss => trivial
  | found hhit => trivial
  | freshDropped hspend => trivial
  | freshSpent hspend => exact ⟨Nat.le_of_eq hnow, hspend⟩
  | loaded cell => exact h.cells cell
  | dropped cell attempts hspend => trivial
  | spent cell attempts hspend => exact ⟨hnow.symm ▸ hpc, Nat.le_of_eq hnow, hspend⟩
  | raced attempts now next hrace => exact h.cells _

variable [DecidableEq Cpu]

theorem Timely.goto {s : RlCpus Cpu} (h : s.Timely rate burst) (c : Cpu) {pc : RlPc}
    (hpc : pc.Timely rate burst s.tick) : (s.goto c pc).Timely rate burst where
  cells := h.cells
  pcs := (Function.forall_update_iff s.pcs fun _ pc => pc.Timely rate burst s.tick).mpr
    ⟨hpc, fun c' _ => h.pcs c'⟩

theorem Timely.letIn {s : RlCpus Cpu} (h : s.Timely rate burst) (c : Cpu) (how : RlAdmit)
    (now : UInt64) : (s.letIn c how now).Timely rate burst :=
  have hnext : (s.goto c .lookup).Timely rate burst := h.goto c trivial
  ⟨hnext.cells, hnext.pcs⟩

omit [DecidableEq Cpu] in
theorem Timely.update {s : RlCpus Cpu} (h : s.Timely rate burst) (cell : Nat)
    {word : UInt64} (hword : rlStamp word ≤ s.tick) :
    ∀ i, rlStamp (Function.update s.cells cell word i) ≤ s.tick :=
  (Function.forall_update_iff s.cells fun _ word => rlStamp word ≤ s.tick).mpr
    ⟨hword, fun i _ => h.cells i⟩

theorem CpuStep.timely {s t : RlCpus Cpu} {c : Cpu} {insertFails : Bool}
    (hstep : CpuStep rate burst s c insertFails t) (h : s.Timely rate burst)
    (hrate : rate.toNat < 2 ^ 32) (hburst : burst.toNat < 2 ^ 32)
    (hclock : s.tick < 2 ^ 32) : t.Timely rate burst := by
  have hpcs := h.pcs c
  cases hstep with
  | move hmove => exact h.goto c (hmove.timely h hpcs hclock)
  | insertFailed hpc hfail => exact h.letIn c _ _
  | exhausted hpc => exact h.letIn c _ _
  | @inserted now fresh hpc hok =>
      rw [hpc] at hpcs
      obtain ⟨hle, hspend⟩ := hpcs
      have hstamp := (rlSpend_some (Nat.lt_of_le_of_lt hle hclock) hrate hburst hspend).1
      rw [← hstamp] at hle
      have hnext : (s.insertCell fresh).Timely rate burst :=
        ⟨h.update s.allocated hle, h.pcs⟩
      exact hnext.letIn c _ _
  | @exchanged cell attempts old now next hpc hcell =>
      rw [hpc] at hpcs
      obtain ⟨-, hle, hspend⟩ := hpcs
      have hstamp := (rlSpend_some (Nat.lt_of_le_of_lt hle hclock) hrate hburst hspend).1
      rw [← hstamp] at hle
      have hnext : (s.swapCell cell next).Timely rate burst := ⟨h.update cell hle, h.pcs⟩
      exact hnext.letIn c _ _

theorem Timely.step {s : RlCpus Cpu} (h : s.Timely rate burst) (e : RlEvent Cpu)
    (hrate : rate.toNat < 2 ^ 32) (hburst : burst.toNat < 2 ^ 32)
    (hclock : (s.step rate burst e).tick < 2 ^ 32) :
    (s.step rate burst e).Timely rate burst := by
  have hle := s.tick_le_step rate burst e
  cases e with
  | elapse ns =>
      exact ⟨fun cell => Nat.le_trans (h.cells cell) hle, fun c => (h.pcs c).mono hle⟩
  | cpu c insertFails =>
      exact (s.stepCpu_cpuStep rate burst c insertFails).timely h hrate hburst
        (Nat.lt_of_le_of_lt hle hclock)

end RlCpus

/-! ## Admissions of one bucket -/

def RlPc.cell : RlPc → Option Nat
  | .lookup | .missClock | .insert _ _ => none
  | .read cell | .clock cell _ _ | .swap cell _ _ _ _ => some cell

namespace RlCpus

variable {Cpu : Type} {rate burst : UInt64}

def metered (s : RlCpus Cpu) : List RlAdmission := s.log.filter (·.how.metered)

/-- Everything admitted was paid for from the bucket that a lookup finds. -/
structure Ledger (rate burst : UInt64) (s : RlCpus Cpu) : Prop where
  held : ∀ c, ∀ cell ∈ (s.pcs c).cell, s.bucket = some cell
  unused : s.bucket = none → s.metered = []
  stamped : ∀ cell ∈ s.bucket,
    (s.metered.map (·.read)).head? = some (rlStamp (s.cells cell))
  spent : ∀ cell ∈ s.bucket,
    Spent (2 ^ rlTokenShift) burst.toNat rate.toNat (s.metered.map (·.read))
      (rlTokens (s.cells cell))

theorem ledger_start (rate burst : UInt64) (ns : Nat) :
    (start Cpu ns).Ledger rate burst := by
  constructor <;> simp [start, metered, RlPc.cell]

theorem Moves.held {s : RlCpus Cpu} {pc pc' : RlPc} (hmove : Moves rate burst s pc pc')
    (hpc : ∀ cell ∈ pc.cell, s.bucket = some cell) :
    ∀ cell ∈ pc'.cell, s.bucket = some cell := by
  cases hmove with
  | missed hmiss => exact hpc
  | found hhit =>
      rintro cell ⟨⟩
      exact hhit
  | freshDropped hspend => exact hpc
  | freshSpent hspend => exact hpc
  | loaded cell => exact hpc
  | dropped cell attempts hspend => simp [RlPc.cell]
  | spent cell attempts hspend => exact hpc
  | raced attempts now next hrace => exact hpc

variable [DecidableEq Cpu]

theorem Ledger.goto {s : RlCpus Cpu} (h : s.Ledger rate burst) (c : Cpu) {pc : RlPc}
    (hpc : ∀ cell ∈ pc.cell, s.bucket = some cell) : (s.goto c pc).Ledger rate burst where
  held := (Function.forall_update_iff s.pcs
    fun _ pc => ∀ cell ∈ pc.cell, s.bucket = some cell).mpr ⟨hpc, fun c' _ => h.held c'⟩
  unused := h.unused
  stamped := h.stamped
  spent := h.spent

theorem Ledger.admit_unmetered {s : RlCpus Cpu} (h : s.Ledger rate burst) (c : Cpu)
    {how : RlAdmit} (now : UInt64) (hhow : how.metered = false) :
    (s.letIn c how now).Ledger rate burst := by
  have hnext : (s.goto c .lookup).Ledger rate burst := h.goto c (by simp [RlPc.cell])
  have hmetered : (s.letIn c how now).metered = s.metered := by
    simp [metered, letIn, hhow]
  refine ⟨hnext.held, ?_, ?_, ?_⟩ <;> rw [hmetered]
  · exact h.unused
  · exact h.stamped
  · exact h.spent

theorem ledger_admit {s : RlCpus Cpu} {c : Cpu} {how : RlAdmit} {now : UInt64} {cell : Nat}
    (hhow : how.metered = true) (hbucket : s.bucket = some cell)
    (hheld : ∀ c', c' ≠ c → ∀ i ∈ (s.pcs c').cell, i = cell)
    (hstamp : rlStamp (s.cells cell) = now.toNat)
    (hspent : Spent (2 ^ rlTokenShift) burst.toNat rate.toNat
      (now.toNat :: s.metered.map (·.read)) (rlTokens (s.cells cell))) :
    (s.letIn c how now).Ledger rate burst := by
  have hmetered : (s.letIn c how now).metered = ⟨how, now.toNat, s.tick⟩ :: s.metered := by
    simp [metered, letIn, hhow]
  have hbucket' : (s.letIn c how now).bucket = some cell := hbucket
  refine ⟨?_, ?_, ?_, ?_⟩
  · refine (Function.forall_update_iff s.pcs
      fun _ pc => ∀ i ∈ pc.cell, (s.letIn c how now).bucket = some i).mpr ⟨?_, ?_⟩
    · simp [RlPc.cell]
    · intro c' hc' i hi
      rw [hbucket', hheld c' hc' i hi]
  · simp [hbucket']
  · rintro i hi
    obtain rfl : cell = i := Option.some.inj (hbucket'.symm.trans hi)
    rw [hmetered]
    exact congrArg some hstamp.symm
  · rintro i hi
    obtain rfl : cell = i := Option.some.inj (hbucket'.symm.trans hi)
    rw [hmetered]
    exact hspent

def insertsFresh (s : RlCpus Cpu) : RlEvent Cpu → Bool
  | .elapse _ => true
  | .cpu c insertFails =>
      match s.pcs c with
      | .insert _ _ => insertFails || s.bucket.isNone
      | _ => true

/-- An insert, or an exchange that succeeds, falls in the tick that its reading gave. -/
def prompt (s : RlCpus Cpu) : RlEvent Cpu → Bool
  | .elapse _ => true
  | .cpu c _ =>
      match s.pcs c with
      | .insert now _ => now.toNat == s.tick
      | .swap cell _ old now _ => s.cells cell != old || now.toNat == s.tick
      | _ => true

theorem CpuStep.ledger {s t : RlCpus Cpu} {c : Cpu} {insertFails : Bool}
    (hstep : CpuStep rate burst s c insertFails t) (h : s.Ledger rate burst)
    (htime : s.Timely rate burst) (hrate : rate.toNat < 2 ^ 32)
    (hburst : burst.toNat < 2 ^ 32) (hclock : s.tick < 2 ^ 32)
    (hfresh : s.insertsFresh (.cpu c insertFails)) : t.Ledger rate burst := by
  have hpcs := htime.pcs c
  cases hstep with
  | move hmove => exact h.goto c (hmove.held (h.held c))
  | insertFailed hpc hfail => exact h.admit_unmetered c _ rfl
  | exhausted hpc => exact h.admit_unmetered c _ rfl
  | @inserted now fresh hpc hok =>
      rw [hpc] at hpcs
      obtain ⟨hle, hspend⟩ := hpcs
      obtain ⟨hstamp, htokens⟩ :=
        rlSpend_some (Nat.lt_of_le_of_lt hle hclock) hrate hburst hspend
      have hnone : s.bucket = none := by simpa [insertsFresh, hpc, hok] using hfresh
      have hcell : (s.insertCell fresh).cells s.allocated = fresh := by simp [insertCell]
      have hmetered : (s.insertCell fresh).metered = [] := h.unused hnone
      apply ledger_admit rfl rfl
      · -- nobody holds a pointer while there is no bucket
        intro c' _ i hi
        have := h.held c' i hi
        simp [hnone] at this
      · rw [hcell, hstamp]
      · rw [hcell, hmetered]
        exact .first _ (htokens ▸ rlLevel_le_burst _ _ _ _)
  | @exchanged cell attempts old now next hpc hcell =>
      rw [hpc] at hpcs
      obtain ⟨hstale, hle, hspend⟩ := hpcs
      obtain ⟨hstamp, htokens⟩ :=
        rlSpend_some (Nat.lt_of_le_of_lt hle hclock) hrate hburst hspend
      have hbucket : s.bucket = some cell := h.held c cell (by simp [hpc, RlPc.cell])
      have hnext : (s.swapCell cell next).cells cell = next := by simp [swapCell]
      apply ledger_admit (s := s.swapCell cell next) rfl hbucket
      · intro c' _ i hi
        have := h.held c' i hi
        rw [hbucket] at this
        exact (Option.some.inj this).symm
      · rw [hnext, hstamp]
      · rw [hnext]
        have hspent := h.spent cell hbucket
        have hlast := h.stamped cell hbucket
        rw [hcell] at hspent hlast
        exact hspent.take now.toNat hlast hstale (htokens ▸ rlLevel_le_burst _ _ _ _)
          (htokens ▸ rlLevel_le_refilled _ _ hstale)

def LogPrompt (s : RlCpus Cpu) : Prop := ∀ a ∈ s.metered, a.read = a.done

theorem CpuStep.logPrompt {s t : RlCpus Cpu} {c : Cpu} {insertFails : Bool}
    (hstep : CpuStep rate burst s c insertFails t) (h : s.LogPrompt)
    (hprompt : s.prompt (.cpu c insertFails)) : t.LogPrompt := by
  have hadmit : ∀ {u : RlCpus Cpu} {how : RlAdmit} {now : UInt64}, u.LogPrompt →
      (how.metered = true → now.toNat = u.tick) → (u.letIn c how now).LogPrompt := by
    intro u how now hu hnow a ha
    rw [metered, List.mem_filter] at ha
    rcases List.mem_cons.mp ha.1 with rfl | hlog
    · exact hnow ha.2
    · exact hu a (List.mem_filter.mpr ⟨hlog, ha.2⟩)
  cases hstep with
  | move hmove => exact h
  | insertFailed hpc hfail => exact hadmit h (by simp [RlAdmit.metered])
  | exhausted hpc => exact hadmit h (by simp [RlAdmit.metered])
  | @inserted now fresh hpc hok =>
      have hnow : now.toNat = s.tick := by simpa [prompt, hpc] using hprompt
      exact hadmit (u := s.insertCell fresh) h fun _ => hnow
  | @exchanged cell attempts old now next hpc hcell =>
      have hnow : now.toNat = s.tick := by simpa [prompt, hpc, hcell] using hprompt
      exact hadmit (u := s.swapCell cell next) h fun _ => hnow

/-! ## The bound on whole runs -/

/-- The source's packets under the configured `rl_refill` and `rl_burst`. -/
def meter (refill burst ns : Nat) (events : List (RlEvent Cpu)) : RlCpus Cpu :=
  run (UInt64.ofNat refill) (UInt64.ofNat burst) (start Cpu ns) events

def Throughout (P : RlCpus Cpu → RlEvent Cpu → Bool) (refill burst ns : Nat)
    (events : List (RlEvent Cpu)) : Prop :=
  Along (step (UInt64.ofNat refill) (UInt64.ofNat burst)) (fun s e => P s e = true)
    (start Cpu ns) events

instance (P : RlCpus Cpu → RlEvent Cpu → Bool) (refill burst ns : Nat)
    (events : List (RlEvent Cpu)) : Decidable (Throughout P refill burst ns events) :=
  inferInstanceAs (Decidable (Along ..))

def WindowBound (refill burst : Nat) (tickOf : RlAdmission → Nat) (s : RlCpus Cpu) : Prop :=
  ∀ a d, s.metered.countP (fun m => decide (a ≤ tickOf m ∧ tickOf m ≤ a + d)) ≤
    (burst + refill * d) / 2 ^ rlTokenShift

omit [DecidableEq Cpu] in
theorem Ledger.windowBound {s : RlCpus Cpu} (h : s.Ledger rate burst) :
    WindowBound rate.toNat burst.toNat RlAdmission.read s := by
  intro a d
  rw [Nat.le_div_iff_mul_le (by decide), Nat.mul_comm]
  cases hbucket : s.bucket with
  | none => simp [h.unused hbucket]
  | some cell =>
      have hwindow := (h.spent cell hbucket).window a d
      rwa [List.countP_map] at hwindow

omit [DecidableEq Cpu] in
theorem LogPrompt.windowBound {s : RlCpus Cpu} (h : s.LogPrompt) {refill burst : Nat}
    (hread : WindowBound refill burst RlAdmission.read s) :
    WindowBound refill burst RlAdmission.done s := by
  intro a d
  have hcount := List.countP_congr (l := s.metered)
    (p := fun m => decide (a ≤ m.done ∧ m.done ≤ a + d))
    (q := fun m => decide (a ≤ m.read ∧ m.read ≤ a + d)) fun m hm => by rw [h m hm]
  rw [hcount]
  exact hread a d

theorem toNat_ofNat_lt {n : Nat} (h : n < 2 ^ 32) : (UInt64.ofNat n).toNat < 2 ^ 32 := by
  rw [UInt64.toNat_ofNat']
  omega

theorem meter_ticks {refill burst ns : Nat} {events : List (RlEvent Cpu)}
    (hclock : (meter refill burst ns events).tick < 2 ^ 32) :
    Along (step (UInt64.ofNat refill) (UInt64.ofNat burst))
      (fun s e => (s.step (UInt64.ofNat refill) (UInt64.ofNat burst) e).tick < 2 ^ 32)
      (start Cpu ns) events :=
  along_of_bounded (tick_le_step _ _) hclock fun _ _ h => h

theorem meter_timely {refill burst : Nat} (hrefill : refill < 2 ^ 32) (hburst : burst < 2 ^ 32)
    {ns : Nat} {events : List (RlEvent Cpu)}
    (hclock : (meter refill burst ns events).tick < 2 ^ 32) :
    (meter refill burst ns events).Timely (UInt64.ofNat refill) (UInt64.ofNat burst) :=
  (meter_ticks hclock).invariant (timely_start _ _ ns) fun _ e htime htick =>
    htime.step e (toNat_ofNat_lt hrefill) (toNat_ofNat_lt hburst) htick

theorem meter_ledger {refill burst : Nat} (hrefill : refill < 2 ^ 32) (hburst : burst < 2 ^ 32)
    {ns : Nat} {events : List (RlEvent Cpu)}
    (hclock : (meter refill burst ns events).tick < 2 ^ 32)
    (hfresh : Throughout insertsFresh refill burst ns events) :
    (meter refill burst ns events).Ledger (UInt64.ofNat refill) (UInt64.ofNat burst) := by
  have hrate := toNat_ofNat_lt hrefill
  have hcap := toNat_ofNat_lt hburst
  have hboth := (hfresh.and (meter_ticks hclock)).invariant
    (I := fun s => s.Timely (UInt64.ofNat refill) (UInt64.ofNat burst) ∧
      s.Ledger (UInt64.ofNat refill) (UInt64.ofNat burst))
    ⟨timely_start _ _ ns, ledger_start _ _ ns⟩
    (by
      rintro s e ⟨htime, hledger⟩ ⟨hins, htick⟩
      refine ⟨htime.step e hrate hcap htick, ?_⟩
      cases e with
      | elapse ns => exact ⟨hledger.held, hledger.unused, hledger.stamped, hledger.spent⟩
      | cpu c insertFails =>
          exact (s.stepCpu_cpuStep _ _ c insertFails).ledger hledger htime hrate hcap
            (Nat.lt_of_le_of_lt (tick_le_step _ _ s _) htick) hins)
  exact hboth.2

theorem meter_logPrompt {refill burst ns : Nat} {events : List (RlEvent Cpu)}
    (hprompt : Throughout prompt refill burst ns events) :
    (meter refill burst ns events).LogPrompt := by
  apply hprompt.invariant
  · simp [LogPrompt, metered, start]
  · intro s e hs he
    cases e with
    | elapse ns => exact hs
    | cpu c insertFails => exact (s.stepCpu_cpuStep _ _ c insertFails).logPrompt hs he

/-- While no insert replaces a bucket, the admissions of every window stay within what the
bucket holds and gains, counted by their clock readings; and, when no tick passes between
reading and admission, counted by when they were let through. -/
theorem meter_windowBound (refill burst ns : Nat) (events : List (RlEvent Cpu))
    (hrefill : refill < 2 ^ 32) (hburst : burst < 2 ^ 32)
    (hclock : (meter refill burst ns events).tick < 2 ^ 32)
    (hfresh : Throughout insertsFresh refill burst ns events) :
    WindowBound refill burst RlAdmission.read (meter refill burst ns events) ∧
      (Throughout prompt refill burst ns events →
        WindowBound refill burst RlAdmission.done (meter refill burst ns events)) := by
  have hread := (meter_ledger hrefill hburst hclock hfresh).windowBound
  rw [UInt64.toNat_ofNat', UInt64.toNat_ofNat', Nat.mod_eq_of_lt (by omega),
    Nat.mod_eq_of_lt (by omega)] at hread
  exact ⟨hread, fun hprompt => (meter_logPrompt hprompt).windowBound hread⟩

theorem meter_windowBound_pair :
    let events : List (RlEvent Bool) :=
      List.replicate 3 (.cpu false false) ++ List.replicate 4 (.cpu true false) ++
        .elapse (2 ^ 20) :: List.replicate 4 (.cpu true false)
    Throughout insertsFresh 256 512 0 events ∧ Throughout prompt 256 512 0 events ∧
      (meter 256 512 0 events).metered.length = 3 ∧
      WindowBound 256 512 RlAdmission.done (meter 256 512 0 events) := by
  intro events
  have hfresh : Throughout insertsFresh 256 512 0 events := by decide +kernel
  have hprompt : Throughout prompt 256 512 0 events := by decide +kernel
  have hclock : (meter 256 512 0 events).tick < 2 ^ 32 := by decide +kernel
  refine ⟨hfresh, hprompt, by decide +kernel, ?_⟩
  exact (meter_windowBound 256 512 0 events (by decide) (by decide) hclock hfresh).2 hprompt

-- without promptness an exchange can land in a later tick than the one it was paid for in
example :
    let events : List (RlEvent Bool) :=
      List.replicate 6 (.cpu false false) ++ .elapse (2 ^ 20) :: .cpu false false ::
        List.replicate 8 (.cpu true false)
    Throughout insertsFresh 512 512 0 events ∧
      (meter 512 512 0 events).metered.countP (·.done = 1) = 512 / 2 ^ rlTokenShift + 1 := by
  decide +kernel

/-- Two CPUs whose lookups both miss before either inserts. -/
def bothMiss : List (RlEvent Bool) :=
  [.cpu false false, .cpu true false, .cpu false false, .cpu true false,
    .cpu false false, .cpu true false]

def AlwaysBounded (tickOf : RlAdmission → Nat) : Prop :=
  ∀ (Cpu : Type) [DecidableEq Cpu] (refill burst ns : Nat) (events : List (RlEvent Cpu)),
    refill < 2 ^ 32 → burst < 2 ^ 32 → (meter refill burst ns events).tick < 2 ^ 32 →
      WindowBound refill burst tickOf (meter refill burst ns events)

/-- Both packets pass on a burst of one token: each insert replaces the other's bucket. -/
theorem not_alwaysBounded :
    ¬ AlwaysBounded RlAdmission.read ∧ ¬ AlwaysBounded RlAdmission.done := by
  have hclock : (meter 0 256 0 bothMiss).tick < 2 ^ 32 := by decide +kernel
  constructor
  · intro h
    have hwindow := h Bool 0 256 0 bothMiss (by decide) (by decide) hclock 0 0
    revert hwindow
    decide +kernel
  · intro h
    have hwindow := h Bool 0 256 0 bothMiss (by decide) (by decide) hclock 0 0
    revert hwindow
    decide +kernel

/-! ## A CPU on its own -/

omit [DecidableEq Cpu] in
def word (s : RlCpus Cpu) : Option UInt64 := s.bucket.map s.cells

/-- A call that no other CPU interrupts and no tick divides is `marlinRatelimit`. -/
theorem run_marlinRatelimit (host : Host) (mctx : MarlinCtx) (counters : Counters)
    (buckets : RatelimitMap) (s : RlCpus Cpu) (c : Cpu)
    (henable : mctx.cfg.flags &&& cfgRlEnable ≠ 0) (hacl : mctx.aclVerdict ≠ .allow)
    (hrace : ∀ n word, host.rlRace n word = word) (hclock : ∀ n, host.ktimeGetNs n = s.ns)
    (hpc : s.pcs c = .lookup) (hword : s.word = buckets mctx.rlKey) :
    ∃ n, ∃ t, t = s.run (UInt64.ofNat mctx.cfg.rlRefill) (UInt64.ofNat mctx.cfg.rlBurst)
        (List.replicate n (.cpu c host.rlInsertFails)) ∧
      t.pcs c = .lookup ∧
      t.word = (marlinRatelimit host mctx counters buckets).buckets mctx.rlKey ∧
      t.log.length = s.log.length +
        if (marlinRatelimit host mctx counters buckets).rc = .ok then 1 else 0 := by
  cases hbucket : s.bucket with
  | none =>
      have hmiss : buckets mctx.rlKey = none := by simp [← hword, word, hbucket]
      cases hspend : rlSpend ((rlTick s.ns <<< 32) ||| UInt64.ofNat mctx.cfg.rlBurst)
          (rlTick s.ns) (UInt64.ofNat mctx.cfg.rlRefill) (UInt64.ofNat mctx.cfg.rlBurst) with
      | none =>
          refine ⟨2, _, rfl, ?_⟩
          simp [run, step, stepCpu, goto, List.replicate, hpc, hbucket, hspend, word,
            marlinRatelimit, henable, hacl, hmiss, hclock]
      | some fresh =>
          refine ⟨3, _, rfl, ?_⟩
          by_cases hfail : host.rlInsertFails = true
          · simp [run, step, stepCpu, goto, letIn, List.replicate, hpc, hbucket, hspend, word,
              marlinRatelimit, henable, hacl, hmiss, hclock, hfail]
          · simp [run, step, stepCpu, goto, letIn, insertCell, List.replicate, hpc, hbucket,
              hspend, word, marlinRatelimit, henable, hacl, hmiss, hclock, hfail]
  | some cell =>
      have hhit : buckets mctx.rlKey = some (s.cells cell) := by
        simp [← hword, word, hbucket]
      rw [marlinRatelimit_alone henable hacl hrace hhit, hclock]
      cases hspend : rlSpend (s.cells cell) (rlTick s.ns) (UInt64.ofNat mctx.cfg.rlRefill)
          (UInt64.ofNat mctx.cfg.rlBurst) with
      | none =>
          refine ⟨3, _, rfl, ?_⟩
          simp [run, step, stepCpu, goto, List.replicate, hpc, hbucket, hspend, word, hhit,
            rlCasRetries]
      | some next =>
          refine ⟨4, _, rfl, ?_⟩
          simp [run, step, stepCpu, goto, letIn, swapCell, List.replicate, hpc, hbucket, hspend,
            word, rlCasRetries]

end RlCpus

end Marlin
