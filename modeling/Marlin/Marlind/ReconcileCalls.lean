import Marlin.Marlind.ReconcileAgain

/-!
# The two times that the frame limit is derived

`reconcile_apply` calls `derive_max_frame` at its first and at its last `write_config`, and
the host may answer differently.  Nothing else in a reconcile hears these answers, so up to
the last `write_config` the host might as well give the first answer every time.
-/

namespace Marlin

open Marlin.Library Marlin.Library.Table

/-! ## The phases that do not derive -/

/-- The second host differs from the first in what it answers to `derive_max_frame`. -/
def Env.SameMaps (e e' : Env) : Prop := ∃ socket mtu, e' = { e with socket, mtu }

abbrev FrameFree {α : Type} (m : Reconcile α) : Prop := Deaf Env.SameMaps m

theorem look_frameFree {α : Type} {f : Env → Nat → Maps → α}
    (h : ∀ e socket mtu, f { e with socket, mtu } = f e) :
    FrameFree (Stepwise.look f : Reconcile α) := by
  refine Deaf.look ?_
  rintro e _ ⟨socket, mtu, rfl⟩
  exact (h e socket mtu).symm

theorem put_frameFree {α : Type} {f : Env → Nat → Maps → List Maps × α}
    (h : ∀ e socket mtu, f { e with socket, mtu } = f e) :
    FrameFree (Stepwise.put f : Reconcile α) := by
  refine Deaf.put ?_
  rintro e _ ⟨socket, mtu, rfl⟩
  exact (h e socket mtu).symm

theorem fail_frameFree {α : Type} (text : String) : FrameFree (fail text : Reconcile α) :=
  .bind (.say _) fun _ => .stop

theorem failErrno_frameFree {α : Type} (text : String) (errno : Errno) :
    FrameFree (failErrno text errno : Reconcile α) := by
  refine .bind (.ask ?_) fun _ => fail_frameFree _
  rintro e _ ⟨socket, mtu, rfl⟩
  rfl

theorem orFail_frameFree {m : Reconcile (Option Errno)} (hm : FrameFree m)
    {k : Option Errno → Reconcile Unit} {text : String} (hnone : k none = pure ())
    (hsome : ∀ errno, k (some errno) = failErrno text errno) : FrameFree (m >>= k) := by
  refine .bind hm fun answer => ?_
  cases answer with
  | none =>
      rw [hnone]
      exact .pure _
  | some errno =>
      rw [hsome]
      exact failErrno_frameFree _ _

section Table

variable {K V : Type} [DecidableEq K] (ref : TableRef K V)

theorem TableRef.getNextKey_frameFree (prev : Option K) : FrameFree (ref.getNextKey prev) :=
  look_frameFree fun _ _ _ => rfl

theorem TableRef.updateElem_frameFree (key : K) (value : V) :
    FrameFree (ref.updateElem key value) :=
  put_frameFree fun _ _ _ => rfl

theorem TableRef.deleteElem_frameFree (key : K) : FrameFree (ref.deleteElem key) :=
  put_frameFree fun _ _ _ => rfl

theorem TableRef.collectKeys_frameFree (room : Nat) (prev : Option K) :
    FrameFree (ref.collectKeys room prev) := by
  induction room generalizing prev with
  | zero => exact .pure _
  | succ room ih =>
      unfold TableRef.collectKeys
      refine .bind (ref.getNextKey_frameFree prev) fun answer => ?_
      cases answer with
      | error errno => exact .pure _
      | ok key => exact .bind (ih _) fun _ => .pure _

theorem TableRef.deleteElem_orGone_frameFree (key : K) (text : String) :
    FrameFree (do
      match ← ref.deleteElem key with
      | none => pure ()
      | some errno => if errno = .enoent then pure () else failErrno text errno) := by
  refine .bind (ref.deleteElem_frameFree key) fun answer => ?_
  cases answer with
  | none => exact .pure _
  | some errno => exact .ite (.pure _) (failErrno_frameFree _ _)

end Table

section Phases

variable {conf : MarlinConf} {keys : BackendKeys}

theorem callocFails_frameFree : FrameFree callocFails := look_frameFree fun _ _ _ => rfl

theorem openMaps_frameFree : FrameFree openMaps := by
  have hfind : ∀ name, FrameFree (findMapFd name) := by
    intro name
    refine .bind (.ask ?_) fun handle => ?_
    · rintro e _ ⟨socket, mtu, rfl⟩
      rfl
    · cases handle with
      | missing => exact .bind (.say _) fun _ => .pure _
      | closed => exact .bind (.say _) fun _ => .pure _
      | opened => exact .pure _
  exact .bind (hfind _) fun _ => .bind (hfind _) fun _ => .bind (hfind _) fun _ =>
    .bind (hfind _) fun _ => .bind (hfind _) fun _ => .bind (hfind _) fun _ =>
    .bind (hfind _) fun _ => .bind (hfind _) fun _ => .bind (hfind _) fun _ =>
    .ite (.pure _) .stop

theorem readVipBaseline_frameFree : FrameFree readVipBaseline := by
  suffices hloop : ∀ room prev out, FrameFree (readVipBaselineFrom room prev out) from
    hloop _ _ _
  intro room
  induction room with
  | zero =>
      intro prev out
      unfold readVipBaselineFrom
      refine .bind (vipMapRef.getNextKey_frameFree prev) fun answer => ?_
      cases answer with
      | error errno => exact .ite (.pure _) (failErrno_frameFree _ _)
      | ok key => exact fail_frameFree _
  | succ room ih =>
      intro prev out
      unfold readVipBaselineFrom
      refine .bind (vipMapRef.getNextKey_frameFree prev) fun answer => ?_
      cases answer with
      | error errno => exact .ite (.pure _) (failErrno_frameFree _ _)
      | ok key =>
          refine .bind (look_frameFree fun _ _ _ => rfl) fun value => ?_
          cases value with
          | error errno => exact failErrno_frameFree _ _
          | ok vipMeta => exact .ite (fail_frameFree _) (ih _ _)

theorem allocateVipNums_frameFree (baseline : List VipAllocBaseline) :
    FrameFree (allocateVipNums conf baseline) :=
  .ite (fail_frameFree _) (.ite (fail_frameFree _) (.pure _))

theorem removeStaleVipKeys_frameFree (baseline : List VipAllocBaseline) :
    FrameFree (removeStaleVipKeys conf baseline) :=
  .forEach (fun _ => .ite (.pure _) (vipMapRef.deleteElem_orGone_frameFree _ _)) _

theorem readOldAclLists_frameFree : FrameFree readOldAclLists := by
  refine .bind (look_frameFree fun _ _ _ => rfl) fun answer => ?_
  cases answer with
  | error errno => exact .pure _
  | ok old => exact .pure _

theorem reconcileAcl_frameFree {K : Type} [DecidableEq K] (ref : TableRef K Nat)
    (want : ConfAclEntry → K) (family : String) (entries : List ConfAclEntry) :
    FrameFree (reconcileAcl ref want family entries) := by
  refine .bind callocFails_frameFree fun oom => .ite (fail_frameFree _) ?_
  refine .bind (ref.collectKeys_frameFree _ _) fun existing => .bind (.forEach (fun entry => ?_) _)
    fun _ => .forEach (fun key => .ite (.pure _) (ref.deleteElem_orGone_frameFree _ _)) _
  exact orFail_frameFree (ref.updateElem_frameFree _ _) rfl fun _ => rfl

theorem applyAside_frameFree : FrameFree (applyAside conf) := by
  have hresolve : ∀ names, FrameFree (resolveTxPorts names) := by
    intro names
    induction names with
    | nil => exact .pure _
    | cons name names ih =>
        refine .bind (look_frameFree fun _ _ _ => rfl) fun ifindex => .ite (fail_frameFree _) ?_
        exact .bind ih fun _ => .pure _
  refine .bind (reconcileAcl_frameFree _ _ _ _) fun _ => ?_
  refine .bind (reconcileAcl_frameFree _ _ _ _) fun _ => ?_
  refine .bind (reconcileAcl_frameFree _ _ _ _) fun _ => ?_
  refine .bind (reconcileAcl_frameFree _ _ _ _) fun _ => ?_
  refine .bind (hresolve _) fun want => .bind (.forEach (fun ifindex => ?_) _) fun _ => .pure _
  exact orFail_frameFree (txPortsRef.updateElem_frameFree _ _) rfl fun _ => rfl

theorem writeBackends_frameFree : FrameFree (writeBackends keys conf) := by
  refine .forEach (fun b => .bind (.ite (look_frameFree fun _ _ _ => rfl) (.pure _))
    fun ifindex => ?_) _
  exact orFail_frameFree (put_frameFree fun _ _ _ => rfl) rfl fun _ => rfl

theorem writeFwdBlock_frameFree (num : Nat) (values : Nat → Nat) :
    FrameFree (writeFwdBlock num values) := by
  refine .bind callocFails_frameFree fun oom => .ite (fail_frameFree _) ?_
  refine .bind (put_frameFree fun _ _ _ => rfl) fun answer => .ite (.pure _) (.forEach ?_ _)
  exact fun kv => orFail_frameFree (put_frameFree fun _ _ _ => rfl) rfl fun _ => rfl

theorem writeVip_frameFree {S : Type} [LinearOrder S] {score : UInt64 → Nat → S} (vip : ConfVip) :
    FrameFree (writeVip score conf vip) := by
  refine .bind callocFails_frameFree fun noMembers => .bind callocFails_frameFree fun noBlock => ?_
  refine .ite (fail_frameFree _) (.bind (writeFwdBlock_frameFree _ _) fun _ => .forEach ?_ _)
  exact fun key => orFail_frameFree (vipMapRef.updateElem_frameFree _ _) rfl fun _ => rfl

theorem retireStaleBackends_frameFree : FrameFree (retireStaleBackends keys conf) := by
  have hkey : ∀ id, FrameFree (localKey keys id) := fun _ => look_frameFree fun _ _ _ => rfl
  refine .forEach (fun id => .bind (hkey id) fun key =>
    .bind (look_frameFree fun _ _ _ => rfl) fun answer => ?_) _
  cases answer with
  | error errno => exact .pure _
  | ok cur =>
      refine .ite (.pure _) (.ite (.pure _) (.bind (hkey id) fun key => ?_))
      exact orFail_frameFree (put_frameFree fun _ _ _ => rfl) rfl fun _ => rfl

theorem applyMaps_frameFree {S : Type} [LinearOrder S] (score : UInt64 → Nat → S)
    (plan : VipAllocPlan) : FrameFree (applyMaps score keys conf plan) := by
  refine .bind applyAside_frameFree fun want => .bind writeBackends_frameFree fun _ => ?_
  refine .bind (.forEach (fun i => ?_) _) fun _ => ?_
  · cases conf.vips[i]? with
    | none => exact .pure _
    | some vip => exact writeVip_frameFree vip
  refine .bind (.forEach (fun num => ?_) _) fun _ => .bind retireStaleBackends_frameFree fun _ => ?_
  · exact .bind callocFails_frameFree fun _ =>
      .ite (fail_frameFree _) (writeFwdBlock_frameFree _ _)
  · exact .bind (txPortsRef.collectKeys_frameFree _ _) fun existing =>
      .forEach (fun _ => .ite (.pure _) (txPortsRef.deleteElem_orGone_frameFree _ _)) _

end Phases

/-! ## Up to the first and up to the last -/

/-- `reconcile_apply` up to its first `write_config`: the assignment and the old bits. -/
def reconcileOpening (conf : MarlinConf) : Reconcile (VipAllocResult × UInt16) := do
  openMaps
  let baseline ← readVipBaseline
  let result ← allocateVipNums conf baseline
  removeStaleVipKeys (conf.withNums result.num) baseline
  let oldAclLists ← readOldAclLists
  pure (result, oldAclLists)

section Score

variable {S : Type} [LinearOrder S] (score : UInt64 → Nat → S)

/-- `reconcile_apply` up to its last `write_config`. -/
def reconcileMaps (keys : BackendKeys) (conf : MarlinConf) : Reconcile MarlinConf := do
  let opening ← reconcileOpening conf
  writeConfig (conf.withNums opening.1.num) (opening.2 ||| aclListsBits conf.acl)
  applyMaps score keys (conf.withNums opening.1.num) opening.1.plan
  pure (conf.withNums opening.1.num)

theorem reconcileApply_eq (keys : BackendKeys) (conf : MarlinConf) :
    reconcileApply score keys conf = (do
      let placed ← reconcileMaps score keys conf
      writeConfig placed (aclListsBits conf.acl)
      pure placed) := by
  simp only [reconcileApply, reconcileMaps, reconcileOpening, bind_assoc, pure_bind]

end Score

/-! ## A host that sticks to its first answers -/

/-- What the calls `n` and `n + 1` say of the interfaces, if `derive_max_frame` makes them. -/
def Env.interfacesAt (e : Env) (index : CBuf → Nat) (n : Nat) : Interfaces where
  nametoindex := index
  mtu iface :=
    match e.socket n with
    | some errno => .error errno
    | none => e.mtu (n + 1) iface

/-- The host that answers every derivation as if it had the number `n`. -/
def Env.heldAt (e : Env) (n : Nat) : Env :=
  { e with socket := fun _ => e.socket n, mtu := fun _ => e.mtu (n + 1) }

section Held

variable {e : Env} {index : CBuf → Nat} {conf : MarlinConf}

theorem Env.heldAt_sameMaps (e : Env) (n : Nat) : e.SameMaps (e.heldAt n) := ⟨_, _, rfl⟩

theorem Env.heldAt_answers (hindex : ∀ n name, e.nametoindex n name = index name) (n : Nat) :
    (e.heldAt n).Answers (e.interfacesAt index n) where
  nametoindex := hindex
  derives := by
    rintro iface answer ⟨-, -, rfl⟩
    simp only [heldAt, interfacesAt]
    cases e.socket n <;> rfl

theorem Env.Calm.heldAt (h : e.Calm) (n : Nat) : (e.heldAt n).Calm :=
  ⟨h.opened, h.reads, h.writes, h.deletes, h.memory⟩

theorem Env.OnlyFull.heldAt (h : e.OnlyFull conf) (n : Nat) : (e.heldAt n).OnlyFull conf :=
  ⟨h.calm.heldAt n, h.ofConf, h.ofId⟩

theorem writeConfig_heldAt (aclLists : UInt16) (n : Nat) (s : Maps) :
    writeConfig conf aclLists e n s = writeConfig conf aclLists (e.heldAt n) n s := by
  have hderive : deriveMaxFrame conf.inst.iface e n s =
      deriveMaxFrame conf.inst.iface (e.heldAt n) n s := by
    cases hsocket : e.socket n with
    | some errno =>
        simp [deriveMaxFrame, Bind.bind, Stepwise.bind, Stepwise.look, Stepwise.ask,
          Stepwise.say, Pure.pure, Stepwise.pure, Env.heldAt, hsocket]
    | none =>
        cases hmtu : e.mtu (n + 1) conf.inst.iface with
        | error errno =>
            simp [deriveMaxFrame, Bind.bind, Stepwise.bind, Stepwise.look, Stepwise.ask,
              Stepwise.say, Pure.pure, Stepwise.pure, Env.heldAt, hsocket, hmtu]
        | ok mtu =>
            by_cases hbig : mtu < 0 ∨ mtu + ethHlen > 0xffff <;>
              simp [deriveMaxFrame, Bind.bind, Stepwise.bind, Stepwise.look, Stepwise.say,
                Pure.pure, Stepwise.pure, Env.heldAt, hsocket, hmtu, hbig]
  have hsettle : settleMaxFrame conf e n s = settleMaxFrame conf (e.heldAt n) n s := by
    unfold settleMaxFrame
    split
    · rfl
    · refine Stepwise.bind_env_congr hderive fun derived _ => ?_
      cases derived with
      | some maxFrame => rfl
      | none => exact (Deaf.ite (fail_frameFree _) (.pure _)).same _ _ (e.heldAt_sameMaps n) _ _
  refine Stepwise.bind_env_congr hsettle fun maxFrame _ => ?_
  exact (orFail_frameFree (put_frameFree fun _ _ _ => rfl) rfl fun _ => rfl).same _ _
    (e.heldAt_sameMaps n) _ _

theorem reconcileOpening_frameFree : FrameFree (reconcileOpening conf) :=
  .bind openMaps_frameFree fun _ => .bind readVipBaseline_frameFree fun _ =>
    .bind (allocateVipNums_frameFree _) fun _ => .bind (removeStaleVipKeys_frameFree _) fun _ =>
    .bind readOldAclLists_frameFree fun _ => .pure _

/-- Up to its last `write_config` a reconcile hears the first answers only. -/
theorem reconcileMaps_heldAt {S : Type} [LinearOrder S] (score : UInt64 → Nat → S)
    (keys : BackendKeys) (n : Nat) (s : Maps) :
    reconcileMaps score keys conf e n s =
      reconcileMaps score keys conf (e.heldAt (reconcileOpening conf e n s).calls) n s := by
  have hsame := e.heldAt_sameMaps (reconcileOpening conf e n s).calls
  refine Stepwise.bind_env_congr (reconcileOpening_frameFree.same e _ hsame n s) fun opening _ => ?_
  refine Stepwise.bind_env_congr (writeConfig_heldAt _ _ _) fun _ _ => ?_
  have hrest : FrameFree (do
      applyMaps score keys (conf.withNums opening.1.num) opening.1.plan
      pure (conf.withNums opening.1.num)) :=
    .bind (applyMaps_frameFree score _) fun _ => .pure _
  exact hrest.same e _ hsame _ _

end Held

theorem writeConfig_calls {e : Env} {conf : MarlinConf} {aclLists : UInt16} {n : Nat} {s : Maps}
    (h : (writeConfig conf aclLists e n s).result = some ()) :
    n < (writeConfig conf aclLists e n s).calls := by
  have hderive : Deaf (fun _ _ => False) (deriveMaxFrame conf.inst.iface) := by
    refine .bind (.look fun _ _ => False.elim) fun socket => ?_
    cases socket with
    | some errno => exact .bind (.ask fun _ _ => False.elim) fun _ => .bind (.say _) fun _ => .pure _
    | none =>
        refine .bind (.look fun _ _ => False.elim) fun mtu => ?_
        cases mtu with
        | error errno =>
            exact .bind (.ask fun _ _ => False.elim) fun _ => .bind (.say _) fun _ => .pure _
        | ok mtu => exact .ite (.bind (.say _) fun _ => .pure _) (.pure _)
  have hsettle : Deaf (fun _ _ => False) (settleMaxFrame conf) := by
    refine .ite (.pure _) (.bind hderive fun derived => ?_)
    cases derived with
    | some maxFrame => exact .pure _
    | none => exact .ite (.bind (.say _) fun _ => .stop) (.pure _)
  have hanswer : ∀ answer : Option Errno, FrameFree (match answer with
      | none => pure ()
      | some errno => failErrno "config: " errno : Reconcile Unit) := by
    intro answer
    cases answer with
    | none => exact .pure _
    | some errno => exact failErrno_frameFree _ _
  unfold writeConfig at h ⊢
  cases hresult : (settleMaxFrame conf e n s).result with
  | none =>
      rw [Stepwise.bind_eq_of_none hresult] at h
      cases h
  | some maxFrame =>
      rw [Stepwise.bind_eq_of_some hresult]
      refine Nat.lt_of_le_of_lt (hsettle.counts e n s) ?_
      exact Nat.lt_of_lt_of_le (Nat.lt_succ_self _) ((hanswer _).counts e _ _)

theorem reconcileMaps_calls {S : Type} [LinearOrder S] {score : UInt64 → Nat → S}
    {keys : BackendKeys} {e : Env} {conf placed : MarlinConf} {n : Nat} {s : Maps}
    (h : (reconcileMaps score keys conf e n s).result = some placed) :
    (reconcileOpening conf e n s).calls < (reconcileMaps score keys conf e n s).calls := by
  unfold reconcileMaps at h ⊢
  cases hopening : (reconcileOpening conf e n s).result with
  | none =>
      rw [Stepwise.bind_eq_of_none hopening] at h
      cases h
  | some opening =>
      rw [Stepwise.bind_eq_of_some hopening] at h ⊢
      have hrest : FrameFree (do
          applyMaps score keys (conf.withNums opening.1.num) opening.1.plan
          pure (conf.withNums opening.1.num)) :=
        .bind (applyMaps_frameFree score _) fun _ => .pure _
      cases hwrite : (writeConfig (conf.withNums opening.1.num) (opening.2 ||| aclListsBits conf.acl)
          e (reconcileOpening conf e n s).calls (reconcileOpening conf e n s).store).result with
      | none =>
          rw [Stepwise.bind_eq_of_none hwrite] at h
          cases h
      | some _ =>
          rw [Stepwise.bind_eq_of_some hwrite]
          exact Nat.lt_of_lt_of_le (writeConfig_calls hwrite) (hrest.counts e _ _)

end Marlin
