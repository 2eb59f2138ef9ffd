import Marlin.Bpf.Accounting
import Marlin.Bpf.Decap

/-!
# Direct server return

A frame that `marlin_nexthop_l2dsr` emits differs from the arriving one in its two
Ethernet addresses only.  They are the backend's stored address with the arriving
destination, or the pair of a lookup whose answer is the backend itself: a gateway
would route the packet back to the address that it arrived for.
-/

namespace Marlin

open Marlin.Library

/-! ## The Ethernet addresses -/

/-- `out` is `frame` but for its Ethernet addresses. -/
structure Readdressed (frame out : Frame) (dest source : Mac) : Prop where
  length : out.length = frame.length
  rest : out.drop 12 = frame.drop 12
  dest : out.mac 0 = dest
  source : out.mac 6 = source

theorem setEthDest_setEthSource {frame : Frame} (h : 12 ≤ frame.length) (dest source : Mac) :
    setEthDest (setEthSource frame source) dest =
      dest.bytes ++ (source.bytes ++ frame.drop 12) := by
  unfold setEthDest setEthSource
  rw [splice_zero, Mac.length_bytes]
  have hdrop : (splice frame 6 source.bytes).drop 6 =
      source.bytes ++ frame.drop (6 + source.bytes.length) := drop_splice_self (by omega)
  rw [hdrop, Mac.length_bytes]

theorem readdressed_setEth {frame : Frame} (h : 12 ≤ frame.length) (dest source : Mac) :
    Readdressed frame (setEthDest (setEthSource frame source) dest) dest source := by
  rw [setEthDest_setEthSource h]
  constructor
  · rw [List.length_append, List.length_append, Mac.length_bytes, Mac.length_bytes,
      List.length_drop]
    omega
  · rfl
  · rfl
  · rfl

theorem marlinBackendMacSet_iff (be : Backend) :
    marlinBackendMacSet be = true ↔ be.mac ≠ 0 := by
  have hmac : be.mac = 0 ↔ be.mac.m0 = 0 ∧ be.mac.m1 = 0 ∧ be.mac.m2 = 0 ∧ be.mac.m3 = 0 ∧
      be.mac.m4 = 0 ∧ be.mac.m5 = 0 := by
    constructor
    · intro h
      rw [h]
      decide
    · rintro ⟨h0, h1, h2, h3, h4, h5⟩
      change (⟨be.mac.m0, be.mac.m1, be.mac.m2, be.mac.m3, be.mac.m4, be.mac.m5⟩ : Mac) = 0
      rw [h0, h1, h2, h3, h4, h5]
      rfl
  unfold marlinBackendMacSet
  rw [bne_iff_ne, Ne, Ne, hmac]
  simp only [UInt8.or_eq_zero_iff, and_assoc]

/-! ## Four ways through -/

section Paths

variable (host : Host) (frame : Frame) (mctx : MarlinCtx)

def fibAnswer : Int × BpfFibLookup := host.fibLookup (marlinFibQuery host frame mctx)

def TakesStoredMac : Prop :=
  mctx.backend.flags &&& marlinBeFFib = 0 ∧ mctx.backend.mac ≠ 0

/-- The FIB is asked although the backend does not ask for it. -/
def FallsBackToFib : Prop :=
  mctx.backend.flags &&& marlinBeFFib = 0 ∧ mctx.backend.mac = 0 ∧ mctx.backend.addr ≠ 0

instance : Decidable (FallsBackToFib mctx) := inferInstanceAs (Decidable (_ ∧ _ ∧ _))

/-- The FIB is asked, knows no neighbour, and the stored address stands in. -/
structure FallsBackToMac : Prop where
  fib : mctx.backend.flags &&& marlinBeFFib ≠ 0
  mac : mctx.backend.mac ≠ 0
  addr : mctx.backend.addr ≠ 0
  rc : (fibAnswer host frame mctx).1 = bpfFibLkupRetNoNeigh
  family : (fibAnswer host frame mctx).2.family = afInet
  onlink : (fibAnswer host frame mctx).2.ipv4Dst = mctx.backend.addr
  ifindex : (fibAnswer host frame mctx).2.ifindex = host.ingressIfindex

structure FollowsFib : Prop where
  stored : ¬TakesStoredMac mctx
  addr : mctx.backend.addr ≠ 0
  rc : (fibAnswer host frame mctx).1 = bpfFibLkupRetSuccess
  family : (fibAnswer host frame mctx).2.family = afInet
  onlink : (fibAnswer host frame mctx).2.ipv4Dst = mctx.backend.addr

def fallbackCounters (counters : Counters) : Counters :=
  if FallsBackToFib mctx then marlinStatsReason .countMacFallback counters else counters

def readdressing : List MarlinRet := [.okTx, .okRedirect, .dropNoTxPort]

/-- Everything that `marlin_nexthop_l2dsr` can do with an Ethernet header. -/
inductive L2dsrPath (counters : Counters) : NhResult → Prop
  | stored (h : TakesStoredMac mctx) :
      L2dsrPath counters
        ⟨.okTx, marlinNexthopStoreMac frame mctx.backend,
          marlinNexthopCheckEgress mctx.backend host.ingressIfindex counters⟩
  | neigh (h : FallsBackToMac host frame mctx) :
      L2dsrPath counters
        ⟨.okTx, marlinNexthopStoreMac frame mctx.backend,
          marlinStatsReason .countNeighFallback
            (marlinNexthopCheckEgress mctx.backend host.ingressIfindex counters)⟩
  | fib (rc : MarlinRet) (h : FollowsFib host frame mctx) (hrc : rc ∈ readdressing)
      (htx : rc = .okTx ↔ (fibAnswer host frame mctx).2.ifindex = host.ingressIfindex) :
      L2dsrPath counters
        ⟨rc, setEthDest (setEthSource frame (fibAnswer host frame mctx).2.smac)
            (fibAnswer host frame mctx).2.dmac,
          marlinNexthopCheckEgress mctx.backend (fibAnswer host frame mctx).2.ifindex
            (fallbackCounters mctx counters)⟩
  | dropped (rc : MarlinRet) (hstored : ¬TakesStoredMac mctx)
      (hneigh : ¬FallsBackToMac host frame mctx) (hrc : rc ∉ readdressing) :
      L2dsrPath counters ⟨rc, frame, fallbackCounters mctx counters⟩

end Paths

section Resolution

variable {host : Host} {maps : Maps} {frame : Frame} {mctx : MarlinCtx} {counters : Counters}

theorem marlinFibOnlink_iff {fib : BpfFibLookup} {backendAddr : Be32} :
    marlinFibOnlink fib backendAddr = true ↔
      fib.family = afInet ∧ fib.ipv4Dst = backendAddr := by
  unfold marlinFibOnlink
  rw [Bool.and_eq_true, beq_iff_eq, beq_iff_eq]

theorem marlinNexthopFib_success {fib : BpfFibLookup} (hstored : ¬TakesStoredMac mctx)
    (haddr : mctx.backend.addr ≠ 0)
    (hanswer : fibAnswer host frame mctx = (bpfFibLkupRetSuccess, fib)) :
    L2dsrPath host frame mctx counters
      (marlinNexthopFib host maps frame mctx .l2dsr (fallbackCounters mctx counters)) := by
  have hlookup : host.fibLookup (marlinFibQuery host frame mctx) =
      (bpfFibLkupRetSuccess, fib) := hanswer
  rw [marlinNexthopFib, if_neg haddr, hlookup]
  dsimp only
  rw [if_pos rfl]
  have hrc : (fibAnswer host frame mctx).1 = bpfFibLkupRetSuccess := by rw [hanswer]
  have hfib : (fibAnswer host frame mctx).2 = fib := by rw [hanswer]
  subst hfib
  by_cases honlink : marlinFibOnlink (fibAnswer host frame mctx).2 mctx.backend.addr = true
  · rw [if_neg (by simp [honlink])]
    obtain ⟨hfamily, hdst⟩ := marlinFibOnlink_iff.mp honlink
    have hfollows : FollowsFib host frame mctx := ⟨hstored, haddr, hrc, hfamily, hdst⟩
    split
    · rename_i hport
      exact .fib .okTx hfollows (by decide) (by simp [hport])
    · rename_i hport
      split
      · exact .fib .dropNoTxPort hfollows (by decide) (by simp [hport])
      · exact .fib .okRedirect hfollows (by decide) (by simp [hport])
  · rw [if_pos (by simp [honlink])]
    apply L2dsrPath.dropped _ hstored _ (by decide)
    intro hneigh
    have hno := hrc.symm.trans hneigh.rc
    exact absurd hno (by decide)

theorem marlinNexthopFib_noNeigh {fib : BpfFibLookup} (hstored : ¬TakesStoredMac mctx)
    (haddr : mctx.backend.addr ≠ 0)
    (hanswer : fibAnswer host frame mctx = (bpfFibLkupRetNoNeigh, fib)) :
    L2dsrPath host frame mctx counters
      (marlinNexthopFib host maps frame mctx .l2dsr (fallbackCounters mctx counters)) := by
  have hlookup : host.fibLookup (marlinFibQuery host frame mctx) =
      (bpfFibLkupRetNoNeigh, fib) := hanswer
  rw [marlinNexthopFib, if_neg haddr, hlookup]
  dsimp only
  rw [if_neg (by decide), if_pos rfl]
  have hrc : (fibAnswer host frame mctx).1 = bpfFibLkupRetNoNeigh := by rw [hanswer]
  have hfib : (fibAnswer host frame mctx).2 = fib := by rw [hanswer]
  subst hfib
  split
  · rename_i h
    obtain ⟨-, honlink, hport, hset⟩ := h
    obtain ⟨hfamily, hdst⟩ := marlinFibOnlink_iff.mp honlink
    have hmac := (marlinBackendMacSet_iff _).mp hset
    have hflag : mctx.backend.flags &&& marlinBeFFib ≠ 0 := fun h => hstored ⟨h, hmac⟩
    -- the backend asks for the FIB, so nothing was counted on the way in
    have hkept : fallbackCounters mctx counters = counters := if_neg (fun h => hflag h.1)
    rw [hkept, hport]
    exact .neigh ⟨hflag, hmac, haddr, hrc, hfamily, hdst, hport⟩
  · rename_i h
    apply L2dsrPath.dropped _ hstored _ (by decide)
    intro hneigh
    apply h
    exact ⟨rfl, marlinFibOnlink_iff.mpr ⟨hneigh.family, hneigh.onlink⟩, hneigh.ifindex,
      (marlinBackendMacSet_iff _).mpr hneigh.mac⟩

theorem marlinNexthopFib_path (hstored : ¬TakesStoredMac mctx) :
    L2dsrPath host frame mctx counters
      (marlinNexthopFib host maps frame mctx .l2dsr (fallbackCounters mctx counters)) := by
  by_cases haddr : mctx.backend.addr = 0
  · rw [marlinNexthopFib, if_pos haddr]
    exact .dropped _ hstored (fun h => h.addr haddr) (by decide)
  rcases hanswer : fibAnswer host frame mctx with ⟨rc, fib⟩
  by_cases hsuccess : rc = bpfFibLkupRetSuccess
  · subst hsuccess
    exact marlinNexthopFib_success hstored haddr hanswer
  by_cases hno : rc = bpfFibLkupRetNoNeigh
  · subst hno
    exact marlinNexthopFib_noNeigh hstored haddr hanswer
  have hneigh : ¬FallsBackToMac host frame mctx := by
    intro h
    have hrc := h.rc
    rw [hanswer] at hrc
    exact hno hrc
  have hlookup : host.fibLookup (marlinFibQuery host frame mctx) = (rc, fib) := hanswer
  rw [marlinNexthopFib, if_neg haddr, hlookup]
  dsimp only
  rw [if_neg hsuccess, if_neg hno]
  repeat' split
  all_goals exact .dropped _ hstored hneigh (by decide)

theorem marlinNexthopL2dsr_stored (h : ethHlen ≤ frame.length) (hstored : TakesStoredMac mctx) :
    marlinNexthopL2dsr host maps frame mctx counters =
      ⟨.okTx, marlinNexthopStoreMac frame mctx.backend,
        marlinNexthopCheckEgress mctx.backend host.ingressIfindex counters⟩ := by
  unfold marlinNexthopL2dsr
  rw [if_neg (Nat.not_lt.mpr h), if_pos hstored.1,
    if_pos ((marlinBackendMacSet_iff _).mpr hstored.2)]

theorem marlinNexthopL2dsr_path (h : ethHlen ≤ frame.length) :
    L2dsrPath host frame mctx counters
      (marlinNexthopL2dsr host maps frame mctx counters) := by
  by_cases hstored : TakesStoredMac mctx
  · rw [marlinNexthopL2dsr_stored h hstored]
    exact .stored hstored
  have hpath : L2dsrPath host frame mctx counters
      (marlinNexthopFib host maps frame mctx .l2dsr (fallbackCounters mctx counters)) :=
    marlinNexthopFib_path hstored
  unfold marlinNexthopL2dsr
  rw [if_neg (Nat.not_lt.mpr h)]
  split
  · rename_i hflag
    have hmac : mctx.backend.mac = 0 := not_not.mp (fun h => hstored ⟨hflag, h⟩)
    have hunset : ¬marlinBackendMacSet mctx.backend = true :=
      fun h => (marlinBackendMacSet_iff _).mp h hmac
    have hcounters : (if mctx.backend.addr ≠ 0 then
        marlinStatsReason .countMacFallback counters else counters) =
        fallbackCounters mctx counters :=
      if_congr (by simp [FallsBackToFib, hflag, hmac]) rfl rfl
    rw [if_neg hunset]
    dsimp only
    rw [hcounters]
    exact hpath
  · rename_i hflag
    have hcounters : fallbackCounters mctx counters = counters := if_neg (fun h => hflag h.1)
    rwa [hcounters] at hpath

end Resolution

/-! ## What is counted -/

def CountedWhere (rc : MarlinRet) (p : Prop) (c c' : Counters) : Prop :=
  (p → c'.dropStats rc.value = c.dropStats rc.value + 1) ∧
    (¬p → c'.dropStats rc.value = c.dropStats rc.value)

theorem CountedWhere.moved {rc : MarlinRet} {p : Prop} {c c' : Counters} (hp : p)
    (h : c'.dropStats rc.value = c.dropStats rc.value + 1) : CountedWhere rc p c c' :=
  ⟨fun _ => h, fun hnot => absurd hp hnot⟩

theorem CountedWhere.still {rc : MarlinRet} {p : Prop} {c c' : Counters} (hnot : ¬p)
    (h : c'.dropStats rc.value = c.dropStats rc.value) : CountedWhere rc p c c' :=
  ⟨fun hp => absurd hp hnot, fun _ => h⟩

theorem marlinStatsReason_other {rc other : MarlinRet} (hne : other ≠ rc)
    (hcounted : MarlinRet.passVipMiss.value ≤ rc.value) (c : Counters) :
    (marlinStatsReason rc c).dropStats other.value = c.dropStats other.value := by
  rw [marlinStatsReason_dropStats rc other c hcounted, if_neg hne]
  exact UInt64.add_zero _

theorem marlinStatsReason_self {rc : MarlinRet}
    (hcounted : MarlinRet.passVipMiss.value ≤ rc.value) (c : Counters) :
    (marlinStatsReason rc c).dropStats rc.value = c.dropStats rc.value + 1 := by
  rw [marlinStatsReason_dropStats rc rc c hcounted, if_pos rfl]

theorem marlinNexthopCheckEgress_other {rc : MarlinRet} (hne : rc ≠ .countEgressMismatch)
    (be : Backend) (ifindex : Nat) (c : Counters) :
    (marlinNexthopCheckEgress be ifindex c).dropStats rc.value = c.dropStats rc.value := by
  unfold marlinNexthopCheckEgress
  split
  · exact marlinStatsReason_other hne (by decide) c
  · rfl

theorem fallbackCounters_other {rc : MarlinRet} (hne : rc ≠ .countMacFallback)
    (mctx : MarlinCtx) (c : Counters) :
    (fallbackCounters mctx c).dropStats rc.value = c.dropStats rc.value := by
  unfold fallbackCounters
  split
  · exact marlinStatsReason_other hne (by decide) c
  · rfl

theorem fallbackCounters_macFallback (mctx : MarlinCtx) (c : Counters) :
    CountedWhere .countMacFallback (FallsBackToFib mctx) c (fallbackCounters mctx c) := by
  by_cases h : FallsBackToFib mctx
  · rw [fallbackCounters, if_pos h]
    exact .moved h (marlinStatsReason_self (by decide) c)
  · rw [fallbackCounters, if_neg h]
    exact .still h rfl

section Contract

variable {host : Host} {maps : Maps} {frame : Frame} {mctx : MarlinCtx} {c : Counters}
  {r : NhResult}

theorem TakesStoredMac.not_fallsBackToMac (h : TakesStoredMac mctx) :
    ¬FallsBackToMac host frame mctx :=
  fun hneigh => hneigh.fib h.1

theorem FollowsFib.not_fallsBackToMac (h : FollowsFib host frame mctx) :
    ¬FallsBackToMac host frame mctx := by
  intro hneigh
  have hrc := h.rc.symm.trans hneigh.rc
  exact absurd hrc (by decide)

theorem TakesStoredMac.not_fallsBackToFib (h : TakesStoredMac mctx) : ¬FallsBackToFib mctx :=
  fun hback => h.2 hback.2.1

theorem FallsBackToMac.not_fallsBackToFib (h : FallsBackToMac host frame mctx) :
    ¬FallsBackToFib mctx :=
  fun hback => h.fib hback.1

theorem L2dsrPath.macFallback (h : L2dsrPath host frame mctx c r) :
    CountedWhere .countMacFallback (FallsBackToFib mctx) c r.counters := by
  have hegress : ∀ ifindex c', (marlinNexthopCheckEgress mctx.backend ifindex c').dropStats
      MarlinRet.countMacFallback.value = c'.dropStats MarlinRet.countMacFallback.value :=
    marlinNexthopCheckEgress_other (by decide) mctx.backend
  cases h with
  | stored hstored => exact .still hstored.not_fallsBackToFib (hegress _ _)
  | neigh hneigh =>
      have hneq : MarlinRet.countMacFallback ≠ .countNeighFallback := by decide
      have hother := marlinStatsReason_other hneq (by decide)
        (marlinNexthopCheckEgress mctx.backend host.ingressIfindex c)
      exact .still hneigh.not_fallsBackToFib (hother.trans (hegress _ _))
  | fib rc hfollows hrc htx =>
      unfold CountedWhere
      rw [hegress]
      exact fallbackCounters_macFallback mctx c
  | dropped rc hstored hneigh hrc => exact fallbackCounters_macFallback mctx c

theorem L2dsrPath.neighFallback (h : L2dsrPath host frame mctx c r) :
    CountedWhere .countNeighFallback (FallsBackToMac host frame mctx) c r.counters := by
  have hegress : ∀ ifindex c', (marlinNexthopCheckEgress mctx.backend ifindex c').dropStats
      MarlinRet.countNeighFallback.value = c'.dropStats MarlinRet.countNeighFallback.value :=
    marlinNexthopCheckEgress_other (by decide) mctx.backend
  have hfallback : (fallbackCounters mctx c).dropStats MarlinRet.countNeighFallback.value =
      c.dropStats MarlinRet.countNeighFallback.value :=
    fallbackCounters_other (by decide) mctx c
  cases h with
  | stored hstored => exact .still hstored.not_fallsBackToMac (hegress _ _)
  | neigh hneigh =>
      apply CountedWhere.moved hneigh
      rw [← hegress host.ingressIfindex c]
      exact marlinStatsReason_self
        (show MarlinRet.passVipMiss.value ≤ MarlinRet.countNeighFallback.value by decide) _
  | fib rc hfollows hrc htx =>
      exact .still hfollows.not_fallsBackToMac ((hegress _ _).trans hfallback)
  | dropped rc hstored hneigh hrc => exact .still hneigh hfallback

theorem L2dsrPath.kept (h : L2dsrPath host frame mctx c r) (hrc : r.rc ∉ readdressing) :
    r.frame = frame ∧
      r.counters.dropStats MarlinRet.countEgressMismatch.value =
        c.dropStats MarlinRet.countEgressMismatch.value := by
  cases h with
  | stored hstored => exact absurd List.mem_cons_self hrc
  | neigh hneigh => exact absurd List.mem_cons_self hrc
  | fib rc hfollows hin htx => exact absurd hin hrc
  | dropped rc hstored hneigh hout => exact ⟨rfl, fallbackCounters_other (by decide) mctx c⟩

structure EmittedToStored (frame : Frame) (mctx : MarlinCtx) (r : NhResult) : Prop where
  rc : r.rc = .okTx
  mac : mctx.backend.mac ≠ 0
  addressed : Readdressed frame r.frame mctx.backend.mac (frame.mac 0)

structure EmittedByFib (host : Host) (frame : Frame) (mctx : MarlinCtx) (r : NhResult) :
    Prop where
  follows : FollowsFib host frame mctx
  addressed : Readdressed frame r.frame (fibAnswer host frame mctx).2.dmac
    (fibAnswer host frame mctx).2.smac
  rc : r.rc = .okTx ↔ (fibAnswer host frame mctx).2.ifindex = host.ingressIfindex

theorem L2dsrPath.emitted (h : L2dsrPath host frame mctx c r) (hlong : ethHlen ≤ frame.length)
    (hrc : r.rc = .okTx ∨ r.rc = .okRedirect) :
    (EmittedToStored frame mctx r ∧
        (TakesStoredMac mctx ∨ FallsBackToMac host frame mctx)) ∨
      EmittedByFib host frame mctx r := by
  have hroom : 12 ≤ frame.length := Nat.le_trans (by decide) hlong
  cases h with
  | stored hstored =>
      exact .inl ⟨⟨rfl, hstored.2, readdressed_setEth hroom _ _⟩, .inl hstored⟩
  | neigh hneigh =>
      exact .inl ⟨⟨rfl, hneigh.mac, readdressed_setEth hroom _ _⟩, .inr hneigh⟩
  | fib rc hfollows hin htx =>
      exact .inr ⟨hfollows, readdressed_setEth hroom _ _, htx⟩
  | dropped rc hstored hneigh hout =>
      rcases hrc with rfl | rfl
      · exact absurd (by decide) hout
      · exact absurd (by decide) hout

/-- The lookup has no say in the result `r`. -/
def NotConsulted (host : Host) (maps : Maps) (frame : Frame) (mctx : MarlinCtx)
    (c : Counters) (r : NhResult) : Prop :=
  ∀ lookup, marlinNexthopL2dsr { host with fibLookup := lookup } maps frame mctx c = r

theorem TakesStoredMac.notConsulted (h : TakesStoredMac mctx) (hlong : ethHlen ≤ frame.length) :
    NotConsulted host maps frame mctx c (marlinNexthopL2dsr host maps frame mctx c) := by
  intro lookup
  rw [marlinNexthopL2dsr_stored hlong h, marlinNexthopL2dsr_stored hlong h]

structure L2dsrResult (host : Host) (maps : Maps) (frame : Frame) (mctx : MarlinCtx)
    (c : Counters) (r : NhResult) : Prop where
  emitted : r.rc = .okTx ∨ r.rc = .okRedirect →
    (EmittedToStored frame mctx r ∧
        ((mctx.backend.flags &&& marlinBeFFib = 0 ∧ NotConsulted host maps frame mctx c r) ∨
          FallsBackToMac host frame mctx)) ∨
      EmittedByFib host frame mctx r
  kept : r.rc ≠ .okTx → r.rc ≠ .okRedirect → r.rc ≠ .dropNoTxPort →
    r.frame = frame ∧
      r.counters.dropStats MarlinRet.countEgressMismatch.value =
        c.dropStats MarlinRet.countEgressMismatch.value
  macFallback : CountedWhere .countMacFallback (FallsBackToFib mctx) c r.counters
  neighFallback :
    CountedWhere .countNeighFallback (FallsBackToMac host frame mctx) c r.counters

/-- Whatever the FIB answers, the frame stays on the segment. -/
theorem marlinNexthopL2dsr_result (host : Host) (maps : Maps) (frame : Frame)
    (mctx : MarlinCtx) (c : Counters) (hlong : ethHlen ≤ frame.length) :
    L2dsrResult host maps frame mctx c (marlinNexthopL2dsr host maps frame mctx c) := by
  have hpath : L2dsrPath host frame mctx c (marlinNexthopL2dsr host maps frame mctx c) :=
    marlinNexthopL2dsr_path hlong
  constructor
  · intro hrc
    rcases hpath.emitted hlong hrc with ⟨hto, hstored | hneigh⟩ | hfib
    · exact .inl ⟨hto, .inl ⟨hstored.1, hstored.notConsulted hlong⟩⟩
    · exact .inl ⟨hto, .inr hneigh⟩
    · exact .inr hfib
  · intro htx hredirect hport
    apply hpath.kept
    simp [readdressing, htx, hredirect, hport]
  · exact hpath.macFallback
  · exact hpath.neighFallback

end Contract

namespace SampleL2dsr

def frame : Frame := [2, 0, 0, 0, 0, 1, 2, 0, 0, 0, 0, 2, 8, 0, 7]

def mctx : MarlinCtx :=
  { (0 : MarlinCtx) with
    backend :=
      { (0 : Backend) with
        addr := ⟨10, 0, 0, 5⟩
        mac := ⟨2, 0, 0, 0, 0, 5⟩
        flags := marlinBeFFib } }

def host : Host := { Sample.host with fibLookup := fun fib => (bpfFibLkupRetNoNeigh, fib) }

end SampleL2dsr

theorem marlinNexthopL2dsr_result_neigh :
    ethHlen ≤ SampleL2dsr.frame.length ∧
      L2dsrResult SampleL2dsr.host Maps.fresh SampleL2dsr.frame SampleL2dsr.mctx
        Sample.counters
        ⟨.okTx, [2, 0, 0, 0, 0, 5, 2, 0, 0, 0, 0, 1, 8, 0, 7],
          marlinStatsReason .countNeighFallback Sample.counters⟩ :=
  ⟨by decide, marlinNexthopL2dsr_result SampleL2dsr.host Maps.fresh SampleL2dsr.frame
    SampleL2dsr.mctx Sample.counters (by decide)⟩

end Marlin
