import Mathlib.Logic.Function.Basic
import Marlin.Abi

/-!
# VIP block allocation

`vip_alloc.c`: which `fwd_table` block every `[[vip]]` entry gets, and in which
order the entries are written so that no address is ever routed through another
entry's block.  An entry is a list of keys and is named by its index; `num i` is
`entries[i].vip_num`.
-/

namespace Marlin

def vipAllocNumUnset : Nat := 0xffffffff

structure VipAllocBaseline where
  key : VipKey
  vipNum : Nat
  deriving DecidableEq, Repr

/-- A kept address: the entry that owns it and the block it points at. -/
structure VipAllocReference where
  entry : Nat
  num : Nat
  deriving DecidableEq, Repr

structure VipAllocPlan where
  writeOrder : List Nat
  release : List Nat
  deriving DecidableEq, Repr

def vipAllocKeyEq (lhs rhs : VipKey) : Bool := vipKeyEq lhs rhs

def vipAllocOwner (entries : List (List VipKey)) (key : VipKey) : Option Nat :=
  entries.findIdx? fun keys => keys.any fun k => vipAllocKeyEq k key

def vipAllocBlockReady (refs : List VipAllocReference) (num entry : Nat) : Bool :=
  refs.all fun ref => !(ref.num == num && ref.entry != entry)

/-- The entry other than `entry` that still holds a live reference to `num`. -/
def vipAllocBlocker (refs : List VipAllocReference) (num entry : Nat) : Option Nat :=
  (refs.find? fun ref => ref.num == num && ref.entry != entry).map
    VipAllocReference.entry

/-! ## Claiming blocks -/

/-- `used[]` and the `vip_num` of every entry. -/
structure VipAllocClaim where
  used : Nat → Bool
  num : Nat → Nat

def vipAllocMatch (keys : List VipKey) (baseline : List VipAllocBaseline)
    (used : Nat → Bool) : Option Nat :=
  keys.findSome? fun k =>
    (baseline.find? fun b => !used b.vipNum && vipAllocKeyEq k b.key).map
      VipAllocBaseline.vipNum

def VipAllocClaim.assign (st : VipAllocClaim) (entry num : Nat) : VipAllocClaim :=
  { used := Function.update st.used num true
    num := Function.update st.num entry num }

/-- First loop of `vip_alloc_claim`: retain a block one of the keys points at. -/
def vipAllocRetain (baseline : List VipAllocBaseline) (st : VipAllocClaim)
    (entry : Nat × List VipKey) : VipAllocClaim :=
  match vipAllocMatch entry.2 baseline st.used with
  | some num => st.assign entry.1 num
  | none => { st with num := Function.update st.num entry.1 vipAllocNumUnset }

/-- Second loop of `vip_alloc_claim`: take the lowest free block. -/
def vipAllocFresh (st : VipAllocClaim) (entry : Nat) : Option VipAllocClaim :=
  if st.num entry ≠ vipAllocNumUnset then some st
  else
    match (List.range maxVips).find? fun num => !st.used num with
    | none => none
    | some num => some (st.assign entry num)

def vipAllocClaim (entries : List (List VipKey)) (baseline : List VipAllocBaseline) :
    Option VipAllocClaim :=
  let retained := ((List.range entries.length).zip entries).foldl
    (vipAllocRetain baseline) ⟨fun _ => false, fun _ => vipAllocNumUnset⟩
  (List.range entries.length).foldlM vipAllocFresh retained

/-! ## Ordering the writes -/

structure VipAllocOrdering where
  refs : List VipAllocReference
  used : Nat → Bool
  num : Nat → Nat
  written : Nat → Bool
  writeOrder : List Nat

/-- Move `entry` to a block that is neither assigned nor referenced. -/
def vipAllocRelocate (st : VipAllocOrdering) (entry : Nat) : Option VipAllocOrdering :=
  match (List.range maxVips).find? fun num =>
      !st.used num && vipAllocBlockReady st.refs num vipAllocNumUnset with
  | none => none
  | some num =>
      some { st with
        used := Function.update (Function.update st.used (st.num entry) false) num true
        num := Function.update st.num entry num }

/--
Follow "blocked by" from `entry` until an entry repeats.  Every round marks an
entry below `count` as seen, so `count` rounds are all the source can make.
-/
def vipAllocWalk (st : VipAllocOrdering) (count : Nat) :
    Nat → (Nat → Bool) → Nat → Nat
  | 0, _, entry => entry
  | fuel + 1, seen, entry =>
      if entry < count ∧ seen entry = false then
        match vipAllocBlocker st.refs (st.num entry) entry with
        | none => entry
        | some blocker => vipAllocWalk st count fuel (Function.update seen entry true) blocker
      else entry

/-- The entry to write next, relocated first when every entry is blocked. -/
def vipAllocNext (st : VipAllocOrdering) (count : Nat) : Option (Nat × VipAllocOrdering) :=
  match (List.range count).find? fun entry =>
      !st.written entry && vipAllocBlockReady st.refs (st.num entry) entry with
  | some entry => some (entry, st)
  | none =>
      match (List.range count).find? fun entry => !st.written entry with
      | none => none
      | some first =>
          let entry := vipAllocWalk st count count (fun _ => false) first
          (vipAllocRelocate st entry).map fun st => (entry, st)

/-- Record the write of `entry`: its kept addresses now point at its block. -/
def VipAllocOrdering.commit (st : VipAllocOrdering) (entry : Nat) : VipAllocOrdering :=
  { st with
    writeOrder := st.writeOrder ++ [entry]
    written := Function.update st.written entry true
    refs := st.refs.map fun ref =>
      if ref.entry = entry then { ref with num := st.num entry } else ref }

/-- The loop of `vip_alloc_order`, with `entry_count - write_count` rounds to go. -/
def vipAllocOrder (count : Nat) : Nat → VipAllocOrdering → Option VipAllocOrdering
  | 0, st => some st
  | remaining + 1, st =>
      match vipAllocNext st count with
      | none => none
      | some (entry, st) => vipAllocOrder count remaining (st.commit entry)

/-! ## The allocator -/

structure VipAllocResult where
  ok : Bool
  num : Nat → Nat
  plan : VipAllocPlan

def VipAllocResult.failed : VipAllocResult :=
  ⟨false, fun _ => vipAllocNumUnset, ⟨[], []⟩⟩

/-- No entry is empty and the running total of keys stays within `MAX_VIPS`. -/
def vipAllocKeyCountOk : Nat → List (List VipKey) → Bool
  | _, [] => true
  | keyCount, keys :: entries =>
      if keys.length = 0 ∨ keys.length > maxVips - keyCount then false
      else vipAllocKeyCountOk (keyCount + keys.length) entries

def vipAllocRefs (entries : List (List VipKey)) (baseline : List VipAllocBaseline) :
    List VipAllocReference :=
  baseline.filterMap fun b =>
    (vipAllocOwner entries b.key).map fun owner => ⟨owner, b.vipNum⟩

def vipAllocRelease (baseline : List VipAllocBaseline) (used : Nat → Bool) : List Nat :=
  (List.range maxVips).filter fun num =>
    (baseline.any fun b => b.vipNum == num) && !used num

def vipAlloc (entries : List (List VipKey)) (baseline : List VipAllocBaseline) :
    VipAllocResult :=
  if entries.length > maxVips ∨ baseline.length > maxVips then .failed
  else if vipAllocKeyCountOk 0 entries = false then .failed
  else if (baseline.any fun b => decide (b.vipNum ≥ maxVips)) then .failed
  else
    match vipAllocClaim entries baseline with
    | none => .failed
    | some claim =>
        match vipAllocOrder entries.length entries.length
            ⟨vipAllocRefs entries baseline, claim.used, claim.num, fun _ => false, []⟩ with
        | none => .failed
        | some st => ⟨true, st.num, ⟨st.writeOrder, vipAllocRelease baseline st.used⟩⟩

end Marlin
