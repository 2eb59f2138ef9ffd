import Marlin.Abi

/-!
# The configuration model

The structures of `conf.h`, the diagnostic collector of `conf.c` and the C
strings they carry.  An array with its count is a list; a `char` buffer is the
list of the bytes written to it, with zeros beyond.
-/

namespace Marlin

/-! ## C strings -/

/-- The contents of a `char` array; every byte past the end of the list is zero. -/
abbrev CBuf := List UInt8

namespace CBuf

def str (buf : CBuf) : List UInt8 := buf.takeWhile (· ≠ 0)

/-- What `%s` prints: one character for each byte of the string. -/
def text (buf : CBuf) : String :=
  String.ofList (buf.str.map fun byte => Char.ofNat byte.toNat)

end CBuf

def strncmpEq (n : Nat) (lhs rhs : CBuf) : Bool := lhs.str.take n == rhs.str.take n

theorem strncmpEq_iff (n : Nat) (lhs rhs : CBuf) :
    strncmpEq n lhs rhs = true ↔ lhs.str.take n = rhs.str.take n := by
  simp [strncmpEq]

def ifNamesize : Nat := 16
def pathMax : Nat := 4096
def marlinConfNameMax : Nat := 64
def marlinConfDiagMax : Nat := 64
def marlinConfDiagLen : Nat := 256

/-! ## Diagnostics -/

structure ConfDiag where
  msg : List String
  dropped : Nat
  warn : List String
  warnDropped : Nat
  deriving DecidableEq, Repr

def confDiagReset : ConfDiag := ⟨[], 0, [], 0⟩

/-- `vsnprintf` into a slot of `MARLIN_CONF_DIAG_LEN` bytes, if a slot is left. -/
def diagAppend (arr : List String) (dropped : Nat) (text : String) : List String × Nat :=
  if arr.length ≥ marlinConfDiagMax then (arr, dropped + 1)
  else (arr ++ [String.ofList (text.toList.take (marlinConfDiagLen - 1))], dropped)

def confDiagAdd (diag : ConfDiag) (text : String) : ConfDiag :=
  let slot := diagAppend diag.msg diag.dropped text
  { diag with msg := slot.1, dropped := slot.2 }

def confDiagWarn (diag : ConfDiag) (text : String) : ConfDiag :=
  let slot := diagAppend diag.warn diag.warnDropped text
  { diag with warn := slot.1, warnDropped := slot.2 }

inductive ConfReport where
  | error (text : String)
  | warning (text : String)
  deriving DecidableEq, Repr

namespace ConfReport

def isError : ConfReport → Bool
  | .error _ => true
  | .warning _ => false

def errorIf (c : Prop) [Decidable c] (text : String) : List ConfReport :=
  if c then [.error text] else []

def warnIf (c : Prop) [Decidable c] (text : String) : List ConfReport :=
  if c then [.warning text] else []

def deliver (diag : ConfDiag) : ConfReport → ConfDiag
  | .error text => confDiagAdd diag text
  | .warning text => confDiagWarn diag text

end ConfReport

def ConfDiag.collect (diag : ConfDiag) (reports : List ConfReport) : ConfDiag :=
  reports.foldl ConfReport.deliver diag

/-! ## The file's sections -/

structure ConfInstance where
  iface : CBuf
  ifindex : Nat
  object : CBuf
  pinDir : CBuf
  tunnelSrcSet : Bool
  tunnelSrc : Be32
  txPorts : List CBuf
  maxFrameSet : Bool
  maxFrame : Nat
  deriving DecidableEq, Repr

structure ConfBackend where
  name : CBuf
  id : Nat
  egress : CBuf
  hasEgress : Bool
  macStated : Bool
  fibStated : Bool
  fibValue : Bool
  vniStated : Bool
  innerMacStated : Bool
  abi : Backend
  deriving DecidableEq, Repr

structure ConfMember where
  backendName : CBuf
  backendId : Nat
  weight : Nat
  deriving DecidableEq, Repr

structure ConfVip where
  keys : List VipKey
  vipMeta : VipMeta
  tableSeed : Key16
  members : List ConfMember
  deriving DecidableEq, Repr

structure ConfAclEntry where
  prefixlen : Nat
  addr : Addr
  deriving DecidableEq, Repr

structure ConfAcl where
  enabled : Bool
  allowV4 : List ConfAclEntry
  blockV4 : List ConfAclEntry
  allowV6 : List ConfAclEntry
  blockV6 : List ConfAclEntry
  deriving DecidableEq, Repr

structure ConfRatelimit where
  enabled : Bool
  tokensPerSec : Nat
  burstPackets : Nat
  deriving DecidableEq, Repr

structure MarlinConf where
  inst : ConfInstance
  acl : ConfAcl
  ratelimit : ConfRatelimit
  backends : List ConfBackend
  vips : List ConfVip
  deriving DecidableEq, Repr

def MarlinConf.keys (conf : MarlinConf) : List VipKey := conf.vips.flatMap ConfVip.keys

/-! ## Backend flags -/

def confModes : List UInt8 :=
  [marlinModeL2dsr, marlinModeIpip, marlinModeGue, marlinModeVxlan]

def parsedBackendFlags (mode : UInt8) (up : Bool) : UInt8 :=
  let flags := if mode ≠ marlinModeL2dsr then mode ||| marlinBeFEncapRequired else mode
  if up then flags ||| marlinBeFState else flags

/-! ## Rate-limit scaling -/

def marlindScaleRefill (tokensPerSec : Nat) : Nat :=
  (tokensPerSec <<< rlTokenShift / 953) % 2 ^ 32

def marlindScaleBurst (burstPackets : Nat) : Nat :=
  (burstPackets <<< rlTokenShift) % 2 ^ 32

/-! ## What a collected report leaves behind -/

def ConfReport.Quiet (reports : List ConfReport) : Prop :=
  ∀ r ∈ reports, r.isError = false

namespace ConfReport

@[simp] theorem quiet_nil : Quiet [] := by simp [Quiet]

@[simp] theorem quiet_cons (r : ConfReport) (reports : List ConfReport) :
    Quiet (r :: reports) ↔ r.isError = false ∧ Quiet reports := by
  simp [Quiet]

@[simp] theorem quiet_append (first second : List ConfReport) :
    Quiet (first ++ second) ↔ Quiet first ∧ Quiet second :=
  List.forall_mem_append

@[simp] theorem quiet_flatMap {α : Type} (xs : List α) (f : α → List ConfReport) :
    Quiet (xs.flatMap f) ↔ ∀ x ∈ xs, Quiet (f x) := by
  simp only [Quiet, List.mem_flatMap]
  exact ⟨fun h x hx r hr => h r ⟨x, hx, hr⟩, fun h r ⟨x, hx, hr⟩ => h x hx r hr⟩

@[simp] theorem quiet_errorIf (c : Prop) [Decidable c] (text : String) :
    Quiet (errorIf c text) ↔ ¬c := by
  by_cases hc : c <;> simp [errorIf, hc, isError]

@[simp] theorem quiet_warnIf (c : Prop) [Decidable c] (text : String) :
    Quiet (warnIf c text) := by
  by_cases hc : c <;> simp [warnIf, hc, isError]

end ConfReport

theorem ConfDiag.msg_collect (diag : ConfDiag) {reports : List ConfReport}
    (h : ConfReport.Quiet reports) : (diag.collect reports).msg = diag.msg := by
  induction reports generalizing diag with
  | nil => rfl
  | cons r reports ih =>
      obtain ⟨hr, hrest⟩ := (ConfReport.quiet_cons r reports).mp h
      cases r with
      | error text => simp [ConfReport.isError] at hr
      | warning text => exact ih (confDiagWarn diag text) hrest

theorem ConfDiag.length_le_collect (diag : ConfDiag) (reports : List ConfReport) :
    diag.msg.length ≤ (diag.collect reports).msg.length := by
  induction reports generalizing diag with
  | nil => exact Nat.le_refl _
  | cons r reports ih =>
      refine Nat.le_trans ?_ (ih (r.deliver diag))
      cases r with
      | error text =>
          simp only [ConfReport.deliver, confDiagAdd, diagAppend]
          split <;> simp
      | warning text => exact Nat.le_refl _

theorem ConfDiag.length_collect_eq_iff (diag : ConfDiag) (reports : List ConfReport)
    (hroom : diag.msg.length < marlinConfDiagMax) :
    (diag.collect reports).msg.length = diag.msg.length ↔ ConfReport.Quiet reports := by
  constructor
  · induction reports generalizing diag with
    | nil => simp
    | cons r reports ih =>
        intro heq
        cases r with
        | error text =>
            have hle := (confDiagAdd diag text).length_le_collect reports
            have hlen : (confDiagAdd diag text).msg.length = diag.msg.length + 1 := by
              simp [confDiagAdd, diagAppend, Nat.not_le.mpr hroom]
            change ((confDiagAdd diag text).collect reports).msg.length = _ at heq
            omega
        | warning text =>
            have hrest := ih (confDiagWarn diag text) hroom heq
            exact (ConfReport.quiet_cons _ _).mpr ⟨rfl, hrest⟩
  · intro h
    rw [diag.msg_collect h]

end Marlin
