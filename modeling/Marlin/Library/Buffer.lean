import Mathlib.Data.List.Basic

/-!
# Writing into a buffer

A buffer is a list that never changes its length; `splice` overwrites a stretch of
it.  Writes that follow one another merge, and a write leaves what lies beyond it
as it was, so that a sequence of writes is read off as one list.
-/

namespace Marlin.Library

variable {α : Type}

/-- The buffer with `bytes` written over it from `off` on. -/
def splice (buf : List α) (off : Nat) (bytes : List α) : List α :=
  buf.take off ++ bytes ++ buf.drop (off + bytes.length)

theorem length_splice {buf bytes : List α} {off : Nat}
    (h : off + bytes.length ≤ buf.length) : (splice buf off bytes).length = buf.length := by
  simp only [splice, List.length_append, List.length_take, List.length_drop]
  omega

theorem splice_zero (buf bytes : List α) :
    splice buf 0 bytes = bytes ++ buf.drop bytes.length := by
  simp [splice]

theorem splice_splice {buf a b : List α} {off : Nat} (h : off + a.length ≤ buf.length) :
    splice (splice buf off a) (off + a.length) b = splice buf off (a ++ b) := by
  have hfront : (buf.take off ++ a).length = off + a.length := by
    simp only [List.length_append, List.length_take]
    omega
  have htake : (splice buf off a).take (off + a.length) = buf.take off ++ a := by
    rw [splice, List.take_append_of_le_length (Nat.le_of_eq hfront.symm), ← hfront,
      List.take_length]
  have hdrop : (splice buf off a).drop (off + a.length + b.length) =
      buf.drop (off + a.length + b.length) := by
    rw [splice, ← hfront, List.drop_length_add_append, List.drop_drop]
  rw [splice, htake, hdrop, splice]
  simp only [List.length_append, List.append_assoc, Nat.add_assoc]

/-- Pieces written one after the other, the first of them at `off`. -/
def spliceAll (buf : List α) (off : Nat) : List (List α) → List α
  | [] => buf
  | piece :: pieces => spliceAll (splice buf off piece) (off + piece.length) pieces

theorem spliceAll_eq {buf : List α} {off : Nat} {pieces : List (List α)}
    (h : off + pieces.flatten.length ≤ buf.length) :
    spliceAll buf off pieces = splice buf off pieces.flatten := by
  induction pieces generalizing buf off with
  | nil => simp [spliceAll, splice]
  | cons piece pieces ih =>
      rw [List.flatten_cons, List.length_append] at h
      have hlength : (splice buf off piece).length = buf.length := length_splice (by omega)
      rw [spliceAll, ih (by rw [hlength]; omega), splice_splice (by omega),
        List.flatten_cons]

theorem splice_append {front rest bytes : List α} {off : Nat}
    (h : off + bytes.length ≤ front.length) :
    splice (front ++ rest) off bytes = splice front off bytes ++ rest := by
  rw [splice, splice, List.take_append_of_le_length (by omega),
    List.drop_append_of_le_length h, List.append_assoc, List.append_assoc, List.append_assoc]

theorem drop_splice_self {buf bytes : List α} {off : Nat} (hoff : off ≤ buf.length) :
    (splice buf off bytes).drop off = bytes ++ buf.drop (off + bytes.length) := by
  have hfront : (buf.take off).length = off := by
    rw [List.length_take]
    omega
  rw [splice, List.append_assoc]
  exact List.drop_left' hfront

end Marlin.Library
