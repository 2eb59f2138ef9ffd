import Mathlib.Data.List.Basic

/-!
# Computations that are watched write by write

A `Stepwise` computation runs over a store `σ`, reads an environment `ε` (which
decides, call by call, what the outside world answers), may stop early, and
records every single write it makes as a pair of the store before it and the
store after it.  A property of the recorded pairs is a property of every
intermediate state, also of the states a computation leaves behind when it
stops halfway.

`Triple` is the program logic for these computations.  Besides a precondition
and a postcondition it carries a relation that every single write satisfies and
a condition on the store at an early stop.
-/

namespace Marlin.Library

structure Outcome (σ δ α : Type) where
  result : Option α
  store : σ
  calls : Nat
  steps : List (σ × σ)
  log : List δ

/--
A computation over the store `σ` with environment `ε` and log entries `δ`.  The
natural number counts the calls made so far, so that the environment can answer
each call differently.
-/
def Stepwise (ε σ δ α : Type) : Type := ε → Nat → σ → Outcome σ δ α

def chain {σ : Type} (s : σ) : List σ → List (σ × σ)
  | [] => []
  | t :: ts => (s, t) :: chain t ts

def Linked {σ : Type} : σ → List (σ × σ) → σ → Prop
  | s, [], t => s = t
  | s, p :: ps, t => p.1 = s ∧ Linked p.2 ps t

/-- The stores that applying the elements one after the other passes through. -/
def trail {σ α : Type} (f : σ → α → σ) : σ → List α → List σ
  | _, [] => []
  | s, x :: xs => f s x :: trail f (f s x) xs

namespace Stepwise

variable {ε σ δ α β : Type}

def pure (a : α) : Stepwise ε σ δ α := fun _ n s => ⟨some a, s, n, [], []⟩

def bind (m : Stepwise ε σ δ α) (f : α → Stepwise ε σ δ β) :
    Stepwise ε σ δ β := fun e n s =>
  let first := m e n s
  match first.result with
  | none => ⟨none, first.store, first.calls, first.steps, first.log⟩
  | some a =>
      let rest := f a e first.calls first.store
      { rest with
        steps := first.steps ++ rest.steps
        log := first.log ++ rest.log }

instance : Monad (Stepwise ε σ δ) where
  pure := Stepwise.pure
  bind := Stepwise.bind

theorem bind_eq_of_none {m : Stepwise ε σ δ α} {f : α → Stepwise ε σ δ β} {e : ε} {n : Nat}
    {s : σ} (h : (m e n s).result = none) :
    (m >>= f) e n s = ⟨none, (m e n s).store, (m e n s).calls, (m e n s).steps,
      (m e n s).log⟩ := by
  change Stepwise.bind m f e n s = _
  simp only [Stepwise.bind, h]

theorem bind_eq_of_some {m : Stepwise ε σ δ α} {f : α → Stepwise ε σ δ β} {e : ε} {n : Nat}
    {s : σ} {a : α} (h : (m e n s).result = some a) :
    (m >>= f) e n s = { f a e (m e n s).calls (m e n s).store with
      steps := (m e n s).steps ++ (f a e (m e n s).calls (m e n s).store).steps
      log := (m e n s).log ++ (f a e (m e n s).calls (m e n s).store).log } := by
  change Stepwise.bind m f e n s = _
  simp only [Stepwise.bind, h]

theorem bind_pure_eq (m : Stepwise ε σ δ α) : m >>= Stepwise.pure = m := by
  funext e n s
  cases h : (m e n s).result with
  | none => rw [bind_eq_of_none h, ← h]
  | some a =>
      rw [bind_eq_of_some h]
      simp only [Stepwise.pure, List.append_nil, ← h]

theorem pure_bind_eq (a : α) (f : α → Stepwise ε σ δ β) : Stepwise.pure a >>= f = f a := by
  funext e n s
  rw [bind_eq_of_some (a := a) rfl]
  rfl

theorem bind_bind_eq {γ : Type} (m : Stepwise ε σ δ α) (f : α → Stepwise ε σ δ β)
    (g : β → Stepwise ε σ δ γ) : m >>= f >>= g = m >>= fun a => f a >>= g := by
  funext e n s
  cases h : (m e n s).result with
  | none =>
      have hfirst : ((m >>= f) e n s).result = none := by rw [bind_eq_of_none h]
      rw [bind_eq_of_none hfirst, bind_eq_of_none h, bind_eq_of_none h]
  | some a =>
      have hfirst : ((m >>= f) e n s).result =
          (f a e (m e n s).calls (m e n s).store).result := by rw [bind_eq_of_some h]
      cases hf : (f a e (m e n s).calls (m e n s).store).result with
      | none =>
          rw [bind_eq_of_none (hfirst.trans hf), bind_eq_of_some h, bind_eq_of_some h,
            bind_eq_of_none hf]
      | some b =>
          rw [bind_eq_of_some (hfirst.trans hf), bind_eq_of_some h, bind_eq_of_some h,
            bind_eq_of_some hf]
          simp only [List.append_assoc]

theorem bind_env_congr {m : Stepwise ε σ δ α} {f : α → Stepwise ε σ δ β} {e e' : ε} {n : Nat}
    {s : σ} (hm : m e n s = m e' n s)
    (hf : ∀ a, (m e n s).result = some a →
      f a e (m e n s).calls (m e n s).store = f a e' (m e n s).calls (m e n s).store) :
    (m >>= f) e n s = (m >>= f) e' n s := by
  cases h : (m e n s).result with
  | none => rw [bind_eq_of_none h, bind_eq_of_none (hm ▸ h), hm]
  | some a => rw [bind_eq_of_some h, bind_eq_of_some (hm ▸ h), hf a h, hm]

instance : LawfulMonad (Stepwise ε σ δ) :=
  LawfulMonad.mk' _ bind_pure_eq pure_bind_eq bind_bind_eq

def stop : Stepwise ε σ δ α := fun _ n s => ⟨none, s, n, [], []⟩

def say (d : δ) : Stepwise ε σ δ Unit := fun _ n s => ⟨some (), s, n, [], [d]⟩

def ask (f : ε → α) : Stepwise ε σ δ α := fun e n s => ⟨some (f e), s, n, [], []⟩

/-- A call that only reads the store. -/
def look (f : ε → Nat → σ → α) : Stepwise ε σ δ α := fun e n s =>
  ⟨some (f e n s), s, n + 1, [], []⟩

/-- A call that makes single writes; `f` lists the stores it passes through. -/
def put (f : ε → Nat → σ → List σ × α) : Stepwise ε σ δ α := fun e n s =>
  let answer := f e n s
  ⟨some answer.2, answer.1.getLastD s, n + 1, chain s answer.1, []⟩

def forEach (body : α → Stepwise ε σ δ Unit) : List α → Stepwise ε σ δ Unit
  | [] => Pure.pure ()
  | x :: xs => do
      body x
      forEach body xs

end Stepwise

/-! ## Linked steps -/

section Linked

variable {σ : Type} {R : σ → σ → Prop} {I : σ → Prop}

theorem Linked.append {s t u : σ} {ps qs : List (σ × σ)}
    (hps : Linked s ps t) (hqs : Linked t qs u) : Linked s (ps ++ qs) u := by
  induction ps generalizing s with
  | nil =>
      cases hps
      exact hqs
  | cons p ps ih => exact ⟨hps.1, ih hps.2⟩

theorem linked_chain (s : σ) (ts : List σ) :
    Linked s (chain s ts) (ts.getLastD s) := by
  induction ts generalizing s with
  | nil => rfl
  | cons t ts ih =>
      rw [List.getLastD_cons]
      exact ⟨rfl, ih t⟩

/--
A trail of writes, seen from one write: `J done` holds once the elements of `done`
have been applied.
-/
theorem trail_spec {α : Type} {f : σ → α → σ} {J : List α → σ → Prop} (xs : List α)
    (h : ∀ done x rest, xs = done ++ x :: rest → ∀ s, J done s →
      R s (f s x) ∧ J (done ++ [x]) (f s x)) {s : σ} (hs : J [] s) :
    (∀ p ∈ chain s (trail f s xs), R p.1 p.2) ∧ J xs ((trail f s xs).getLastD s) := by
  suffices hloop : ∀ done rest, xs = done ++ rest → ∀ s, J done s →
      (∀ p ∈ chain s (trail f s rest), R p.1 p.2) ∧
        J xs ((trail f s rest).getLastD s) from hloop [] xs rfl s hs
  intro done rest
  induction rest generalizing done with
  | nil =>
      intro hxs s hs
      rw [List.append_nil] at hxs
      exact ⟨by simp [trail, chain], by simpa [trail, hxs] using hs⟩
  | cons x rest ih =>
      intro hxs s hs
      obtain ⟨hstep, hnext⟩ := h done x rest hxs s hs
      obtain ⟨hsteps, hlast⟩ := ih (done ++ [x]) (by simp [hxs]) (f s x) hnext
      simp only [trail, chain, List.getLastD_cons]
      exact ⟨List.forall_mem_cons.mpr ⟨hstep, hsteps⟩, hlast⟩

theorem Linked.invariant {s t : σ} {ps : List (σ × σ)} (hps : Linked s ps t)
    (hR : ∀ p ∈ ps, R p.1 p.2) (hI : ∀ a b, R a b → I a → I b) (hs : I s) :
    I t ∧ ∀ p ∈ ps, I p.1 ∧ I p.2 := by
  induction ps generalizing s with
  | nil =>
      cases hps
      exact ⟨hs, by simp⟩
  | cons p ps ih =>
      obtain ⟨rfl, hlink⟩ := hps
      have hnext : I p.2 := hI _ _ (hR p (by simp)) hs
      obtain ⟨ht, hall⟩ := ih hlink (fun q hq => hR q (by simp [hq])) hnext
      refine ⟨ht, ?_⟩
      intro q hq
      rcases List.mem_cons.mp hq with rfl | hq
      · exact ⟨hs, hnext⟩
      · exact hall q hq

end Linked

/-! ## Following one run -/

namespace Stepwise

variable {ε σ δ α β : Type} {m : Stepwise ε σ δ α} {f : α → Stepwise ε σ δ β} {e : ε}
  {n n' n'' : Nat} {s s' s'' : σ} {a : α} {b : β}

/-- The run from `s` at call `n` returns `a` and leaves `s'` at call `n'`. -/
structure Runs (m : Stepwise ε σ δ α) (e : ε) (n : Nat) (s : σ) (a : α) (n' : Nat) (s' : σ) :
    Prop where
  result : (m e n s).result = some a
  calls : (m e n s).calls = n'
  store : (m e n s).store = s'

/-- The run from `s` at call `n` stops and leaves `s'`. -/
structure Halts (m : Stepwise ε σ δ α) (e : ε) (n : Nat) (s s' : σ) : Prop where
  result : (m e n s).result = none
  store : (m e n s).store = s'

/-- Running `m` comes down to running `k` from `s'` at call `n'`. -/
def Leads (m : Stepwise ε σ δ α) (e : ε) (n : Nat) (s : σ) (k : Stepwise ε σ δ α) (n' : Nat)
    (s' : σ) : Prop :=
  ∃ steps log, m e n s = { k e n' s' with
    steps := steps ++ (k e n' s').steps
    log := log ++ (k e n' s').log }

theorem Runs.leads (hm : Runs m e n s a n' s') : Leads (m >>= f) e n s (f a) n' s' := by
  refine ⟨(m e n s).steps, (m e n s).log, ?_⟩
  change Stepwise.bind m f e n s = _
  simp only [Stepwise.bind, hm.result, hm.calls, hm.store]

section

variable {k : Stepwise ε σ δ α}

theorem Leads.trans {l : Stepwise ε σ δ α} (h : Leads m e n s k n' s')
    (h' : Leads k e n' s' l n'' s'') : Leads m e n s l n'' s'' := by
  obtain ⟨steps, log, hm⟩ := h
  obtain ⟨steps', log', hk⟩ := h'
  refine ⟨steps ++ steps', log ++ log', ?_⟩
  rw [hm, hk]
  simp

theorem Leads.bind (h : Leads m e n s k n' s') : Leads (m >>= f) e n s (k >>= f) n' s' := by
  obtain ⟨steps, log, hm⟩ := h
  refine ⟨steps, log, ?_⟩
  change Stepwise.bind m f e n s = _
  simp only [Stepwise.bind, hm]
  change _ = { Stepwise.bind k f e n' s' with
    steps := steps ++ (Stepwise.bind k f e n' s').steps
    log := log ++ (Stepwise.bind k f e n' s').log }
  simp only [Stepwise.bind]
  split <;> simp

theorem Leads.runs (h : Leads m e n s k n' s') (hk : Runs k e n' s' a n'' s'') :
    Runs m e n s a n'' s'' := by
  obtain ⟨steps, log, hm⟩ := h
  exact ⟨by rw [hm]; exact hk.result, by rw [hm]; exact hk.calls, by rw [hm]; exact hk.store⟩

theorem Leads.halts (h : Leads m e n s k n' s') (hk : Halts k e n' s' s'') :
    Halts m e n s s'' := by
  obtain ⟨steps, log, hm⟩ := h
  exact ⟨by rw [hm]; exact hk.result, by rw [hm]; exact hk.store⟩

theorem Leads.mem_steps (h : Leads m e n s k n' s') {p : σ × σ}
    (hp : p ∈ (k e n' s').steps) : p ∈ (m e n s).steps := by
  obtain ⟨steps, log, hm⟩ := h
  rw [hm]
  exact List.mem_append_right _ hp

end

theorem Runs.bind (hm : Runs m e n s a n' s') (hf : Runs (f a) e n' s' b n'' s'') :
    Runs (m >>= f) e n s b n'' s'' :=
  hm.leads.runs hf

theorem Halts.bind (hm : Halts m e n s s') : Halts (m >>= f) e n s s' := by
  change Halts (Stepwise.bind m f) e n s s'
  constructor
  · simp only [Stepwise.bind, hm.result]
  · simp only [Stepwise.bind, hm.result, hm.store]

theorem mem_steps_left {p : σ × σ} (hp : p ∈ (m e n s).steps) :
    p ∈ ((m >>= f) e n s).steps := by
  change p ∈ (Stepwise.bind m f e n s).steps
  simp only [Stepwise.bind]
  split
  · exact hp
  · exact List.mem_append_left _ hp

end Stepwise

/-! ## The program logic -/

/--
What a run from `s` satisfies: its writes are linked and all related by `R`, a
stop leaves a store in `S`, and a result `a` comes with a store in `Q a`.
-/
structure Outcome.Meets {σ δ α : Type} (o : Outcome σ δ α) (s : σ)
    (R : σ → σ → Prop) (S : σ → Prop) (Q : α → σ → Prop) : Prop where
  linked : Linked s o.steps o.store
  steps : ∀ p ∈ o.steps, R p.1 p.2
  stopped : o.result = none → S o.store
  finished : ∀ a, o.result = some a → Q a o.store

def Triple {ε σ δ α : Type} (e : ε) (P : σ → Prop) (m : Stepwise ε σ δ α)
    (R : σ → σ → Prop) (S : σ → Prop) (Q : α → σ → Prop) : Prop :=
  ∀ n s, P s → (m e n s).Meets s R S Q

namespace Triple

variable {ε σ δ α β : Type} {e : ε} {P P' : σ → Prop} {R R' : σ → σ → Prop}
  {S S' : σ → Prop} {Q Q' : α → σ → Prop}

theorem consequence {m : Stepwise ε σ δ α} (h : Triple e P m R S Q)
    (hP : ∀ s, P' s → P s) (hR : ∀ s t, R s t → R' s t) (hS : ∀ s, S s → S' s)
    (hQ : ∀ a s, Q a s → Q' a s) : Triple e P' m R' S' Q' := by
  intro n s hs
  have hm := h n s (hP s hs)
  exact ⟨hm.linked, fun p hp => hR _ _ (hm.steps p hp),
    fun hr => hS _ (hm.stopped hr), fun a ha => hQ a _ (hm.finished a ha)⟩

theorem pre {m : Stepwise ε σ δ α} (h : Triple e P m R S Q)
    (hP : ∀ s, P' s → P s) : Triple e P' m R S Q :=
  fun n s hs => h n s (hP s hs)

theorem post {m : Stepwise ε σ δ α} (h : Triple e P m R S Q)
    (hQ : ∀ a s, Q a s → Q' a s) : Triple e P m R S Q' :=
  h.consequence (fun _ => id) (fun _ _ => id) (fun _ => id) hQ

theorem assume {m : Stepwise ε σ δ α} {C : Prop}
    (h : C → Triple e P m R S Q) : Triple e (fun s => C ∧ P s) m R S Q :=
  fun n s hs => h hs.1 n s hs.2

theorem byStore {m : Stepwise ε σ δ α}
    (h : ∀ s₀, P s₀ → Triple e (fun s => s = s₀) m R S Q) : Triple e P m R S Q :=
  fun n s hs => h s hs n s rfl

theorem pure {a : α} (h : ∀ s, P s → Q a s) :
    Triple e P (Pure.pure a : Stepwise ε σ δ α) R S Q := by
  intro n s hs
  refine ⟨rfl, by simp [Pure.pure, Stepwise.pure], by simp [Pure.pure, Stepwise.pure], ?_⟩
  intro b hb
  cases hb
  exact h s hs

theorem bind {m : Stepwise ε σ δ α} {f : α → Stepwise ε σ δ β}
    {M : α → σ → Prop} {Q : β → σ → Prop} (hm : Triple e P m R S M)
    (hf : ∀ a, Triple e (M a) (f a) R S Q) : Triple e P (m >>= f) R S Q := by
  intro n s hs
  have hfirst := hm n s hs
  change (Stepwise.bind m f e n s).Meets s R S Q
  cases hr : (m e n s).result with
  | none =>
      simp only [Stepwise.bind, hr]
      exact ⟨hfirst.linked, hfirst.steps, fun _ => hfirst.stopped hr, by simp⟩
  | some a =>
      simp only [Stepwise.bind, hr]
      have hrest := hf a (m e n s).calls (m e n s).store (hfirst.finished a hr)
      refine ⟨hfirst.linked.append hrest.linked, ?_, hrest.stopped, hrest.finished⟩
      intro p hp
      rcases List.mem_append.mp hp with hp | hp
      · exact hfirst.steps p hp
      · exact hrest.steps p hp

theorem stop (h : ∀ s, P s → S s) :
    Triple e P (Stepwise.stop : Stepwise ε σ δ α) R S Q :=
  fun _ s hs => ⟨rfl, by simp [Stepwise.stop], fun _ => h s hs, by simp [Stepwise.stop]⟩

theorem say {d : δ} {Q : Unit → σ → Prop} (h : ∀ s, P s → Q () s) :
    Triple e P (Stepwise.say d : Stepwise ε σ δ Unit) R S Q :=
  fun _ s hs =>
    ⟨rfl, by simp [Stepwise.say], by simp [Stepwise.say], fun _ _ => h s hs⟩

theorem ask {f : ε → α} (h : ∀ s, P s → Q (f e) s) :
    Triple e P (Stepwise.ask f : Stepwise ε σ δ α) R S Q := by
  intro n s hs
  refine ⟨rfl, by simp [Stepwise.ask], by simp [Stepwise.ask], ?_⟩
  intro a ha
  cases ha
  exact h s hs

theorem look {f : ε → Nat → σ → α} (h : ∀ n s, P s → Q (f e n s) s) :
    Triple e P (Stepwise.look f : Stepwise ε σ δ α) R S Q := by
  intro n s hs
  refine ⟨rfl, by simp [Stepwise.look], by simp [Stepwise.look], ?_⟩
  intro a ha
  cases ha
  exact h n s hs

theorem put {f : ε → Nat → σ → List σ × α}
    (hR : ∀ n s, P s → ∀ p ∈ chain s (f e n s).1, R p.1 p.2)
    (hQ : ∀ n s, P s → Q (f e n s).2 ((f e n s).1.getLastD s)) :
    Triple e P (Stepwise.put f : Stepwise ε σ δ α) R S Q := by
  intro n s hs
  refine ⟨linked_chain _ _, hR n s hs, by simp [Stepwise.put], ?_⟩
  intro a ha
  cases ha
  exact hQ n s hs

theorem ite {c : Prop} [Decidable c] {m k : Stepwise ε σ δ α}
    (ht : c → Triple e P m R S Q) (hf : ¬c → Triple e P k R S Q) :
    Triple e P (if c then m else k) R S Q := by
  by_cases hc : c
  · rw [if_pos hc]
    exact ht hc
  · rw [if_neg hc]
    exact hf hc

/--
The loop rule: `J done` holds of the store once the elements of `done` have been
handled.
-/
theorem forEach {body : α → Stepwise ε σ δ Unit} {J : List α → σ → Prop}
    (xs : List α)
    (h : ∀ done x rest, xs = done ++ x :: rest →
      Triple e (J done) (body x) R S (fun _ => J (done ++ [x]))) :
    Triple e (J []) (Stepwise.forEach body xs) R S (fun _ => J xs) := by
  suffices hloop : ∀ done rest, xs = done ++ rest →
      Triple e (J done) (Stepwise.forEach body rest) R S (fun _ => J xs) from
    hloop [] xs rfl
  intro done rest
  induction rest generalizing done with
  | nil =>
      intro hxs
      refine pure fun s hs => ?_
      rw [hxs, List.append_nil]
      exact hs
  | cons x rest ih =>
      intro hxs
      exact bind (h done x rest hxs) fun _ => ih (done ++ [x]) (by simp [hxs])

theorem invariant {m : Stepwise ε σ δ α} {I : σ → Prop} (h : Triple e P m R S Q)
    (hI : ∀ s t, R s t → I s → I t) :
    Triple e (fun s => P s ∧ I s) m (fun s t => R s t ∧ I s ∧ I t)
      (fun s => S s ∧ I s) (fun a s => Q a s ∧ I s) := by
  intro n s hs
  have hm := h n s hs.1
  obtain ⟨hend, hall⟩ := hm.linked.invariant hm.steps hI hs.2
  exact ⟨hm.linked, fun p hp => ⟨hm.steps p hp, hall p hp⟩,
    fun hr => ⟨hm.stopped hr, hend⟩, fun a ha => ⟨hm.finished a ha, hend⟩⟩

theorem and {m : Stepwise ε σ δ α} (h : Triple e P m R S Q) (h' : Triple e P' m R' S' Q') :
    Triple e (fun s => P s ∧ P' s) m (fun s t => R s t ∧ R' s t) (fun s => S s ∧ S' s)
      (fun a s => Q a s ∧ Q' a s) := by
  intro n s hs
  have hm := h n s hs.1
  have hm' := h' n s hs.2
  exact ⟨hm.linked, fun p hp => ⟨hm.steps p hp, hm'.steps p hp⟩,
    fun hr => ⟨hm.stopped hr, hm'.stopped hr⟩, fun a ha => ⟨hm.finished a ha, hm'.finished a ha⟩⟩

end Triple

/-! ## Computations that write in one way only -/

/-- Every single write of the computation satisfies `R`, whatever the environment. -/
def Only {ε σ δ α : Type} (R : σ → σ → Prop) (m : Stepwise ε σ δ α) : Prop :=
  ∀ e, Triple e (fun _ => True) m R (fun _ => True) fun _ _ => True

namespace Only

variable {ε σ δ α β : Type} {R : σ → σ → Prop}

theorem pure (a : α) : Only R (Pure.pure a : Stepwise ε σ δ α) :=
  fun _ => Triple.pure fun _ _ => trivial

theorem bind {m : Stepwise ε σ δ α} {f : α → Stepwise ε σ δ β} (hm : Only R m)
    (hf : ∀ a, Only R (f a)) : Only R (m >>= f) :=
  fun e => Triple.bind (hm e) fun a => hf a e

theorem stop : Only R (Stepwise.stop : Stepwise ε σ δ α) :=
  fun _ => Triple.stop fun _ _ => trivial

theorem say (d : δ) : Only R (Stepwise.say d : Stepwise ε σ δ Unit) :=
  fun _ => Triple.say fun _ _ => trivial

theorem ask (f : ε → α) : Only R (Stepwise.ask f : Stepwise ε σ δ α) :=
  fun _ => Triple.ask fun _ _ => trivial

theorem look (f : ε → Nat → σ → α) : Only R (Stepwise.look f : Stepwise ε σ δ α) :=
  fun _ => Triple.look fun _ _ _ => trivial

theorem put {f : ε → Nat → σ → List σ × α}
    (h : ∀ e n s, ∀ p ∈ chain s (f e n s).1, R p.1 p.2) :
    Only R (Stepwise.put f : Stepwise ε σ δ α) :=
  fun e => Triple.put (fun n s _ => h e n s) fun _ _ _ => trivial

theorem ite {c : Prop} [Decidable c] {m k : Stepwise ε σ δ α} (hm : Only R m) (hk : Only R k) :
    Only R (if c then m else k) :=
  fun e => Triple.ite (fun _ => hm e) fun _ => hk e

theorem forEach {body : α → Stepwise ε σ δ Unit} (h : ∀ x, Only R (body x)) (xs : List α) :
    Only R (Stepwise.forEach body xs) :=
  fun e => Triple.forEach (J := fun _ _ => True) xs fun _ x _ _ => h x e

theorem frame {e : ε} {P : σ → Prop} {R' : σ → σ → Prop} {S : σ → Prop} {Q : α → σ → Prop}
    {I : σ → Prop} {m : Stepwise ε σ δ α} (hm : Only R m) (h : Triple e P m R' S Q)
    (hI : ∀ s t, R s t → I s → I t) :
    Triple e (fun s => P s ∧ I s) m (fun s t => R' s t ∧ R s t ∧ I t) S
      (fun a s => Q a s ∧ I s) := by
  refine Triple.consequence ((h.and (hm e)).invariant (I := I) fun s t hst => hI s t hst.2)
    (fun s hs => ⟨⟨hs.1, trivial⟩, hs.2⟩) (fun s t hst => ⟨hst.1.1, hst.1.2, hst.2.2⟩)
    (fun s hs => hs.1.1) fun a s hs => ⟨hs.1.1, hs.2⟩

theorem keeps {e : ε} {I : σ → Prop} {m : Stepwise ε σ δ α} (hm : Only (fun s t => I s → I t) m) :
    Triple e I m (fun _ _ => True) (fun _ => True) fun _ => I :=
  Triple.consequence ((hm e).invariant (I := I) fun _ _ hst => hst) (fun _ hs => ⟨trivial, hs⟩)
    (fun _ _ _ => trivial) (fun _ _ => trivial) fun _ _ hs => hs.2

theorem still {e : ε} {P : σ → Prop} {R' : σ → σ → Prop} {m : Stepwise ε σ δ α}
    (hm : Only (fun _ _ => False) m) : Triple e P m R' (fun _ => True) (fun _ => P) := by
  refine Triple.consequence ((hm e).invariant (I := P) fun _ _ hst => hst.elim)
    (fun s hs => ⟨trivial, hs⟩) (fun s t hst => hst.1.elim) (fun _ _ => trivial)
    fun _ s hs => hs.2

end Only

/-! ## Computations that do not tell environments apart -/

/-- The computation runs alike in environments that `E` relates, and counts its calls up. -/
structure Deaf {ε σ δ α : Type} (E : ε → ε → Prop) (m : Stepwise ε σ δ α) : Prop where
  same : ∀ e e', E e e' → ∀ n s, m e n s = m e' n s
  counts : ∀ e n s, n ≤ (m e n s).calls

namespace Deaf

variable {ε σ δ α β : Type} {E : ε → ε → Prop}

theorem pure (a : α) : Deaf E (Pure.pure a : Stepwise ε σ δ α) :=
  ⟨fun _ _ _ _ _ => rfl, fun _ _ _ => Nat.le_refl _⟩

theorem bind {m : Stepwise ε σ δ α} {f : α → Stepwise ε σ δ β} (hm : Deaf E m)
    (hf : ∀ a, Deaf E (f a)) : Deaf E (m >>= f) where
  same e e' he n s :=
    Stepwise.bind_env_congr (hm.same e e' he n s) fun a _ => (hf a).same e e' he _ _
  counts e n s := by
    cases h : (m e n s).result with
    | none =>
        rw [Stepwise.bind_eq_of_none h]
        exact hm.counts e n s
    | some a =>
        rw [Stepwise.bind_eq_of_some h]
        exact Nat.le_trans (hm.counts e n s) ((hf a).counts e _ _)

theorem stop : Deaf E (Stepwise.stop : Stepwise ε σ δ α) :=
  ⟨fun _ _ _ _ _ => rfl, fun _ _ _ => Nat.le_refl _⟩

theorem say (d : δ) : Deaf E (Stepwise.say d : Stepwise ε σ δ Unit) :=
  ⟨fun _ _ _ _ _ => rfl, fun _ _ _ => Nat.le_refl _⟩

theorem ask {f : ε → α} (h : ∀ e e', E e e' → f e = f e') :
    Deaf E (Stepwise.ask f : Stepwise ε σ δ α) :=
  ⟨fun e e' he n s => by rw [Stepwise.ask, Stepwise.ask, h e e' he], fun _ _ _ => Nat.le_refl _⟩

theorem look {f : ε → Nat → σ → α} (h : ∀ e e', E e e' → f e = f e') :
    Deaf E (Stepwise.look f : Stepwise ε σ δ α) :=
  ⟨fun e e' he n s => by rw [Stepwise.look, Stepwise.look, h e e' he], fun _ _ _ => Nat.le_succ _⟩

theorem put {f : ε → Nat → σ → List σ × α} (h : ∀ e e', E e e' → f e = f e') :
    Deaf E (Stepwise.put f : Stepwise ε σ δ α) :=
  ⟨fun e e' he n s => by rw [Stepwise.put, Stepwise.put, h e e' he], fun _ _ _ => Nat.le_succ _⟩

theorem ite {c : Prop} [Decidable c] {m k : Stepwise ε σ δ α} (hm : Deaf E m)
    (hk : Deaf E k) : Deaf E (if c then m else k) := by
  by_cases hc : c
  · rw [if_pos hc]
    exact hm
  · rw [if_neg hc]
    exact hk

theorem forEach {body : α → Stepwise ε σ δ Unit} (h : ∀ x, Deaf E (body x)) (xs : List α) :
    Deaf E (Stepwise.forEach body xs) := by
  induction xs with
  | nil => exact pure _
  | cons x xs ih => exact bind (h x) fun _ => ih

end Deaf

end Marlin.Library
