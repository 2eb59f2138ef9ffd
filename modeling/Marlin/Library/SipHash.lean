import Mathlib.Data.List.Basic
import Mathlib.Logic.Function.Iterate
import Mathlib.Tactic.Ring

/-!
# SipHash

The keyed hash SipHash-c-d with 64-bit output, for messages of any length: `c`
rounds absorb each word of the message, `d` rounds finish.  The last word carries
the bytes left over and, in its top byte, the length modulo `256`.
-/

namespace Marlin.Library.SipHash

abbrev Word := BitVec 64

structure State where
  v0 : Word
  v1 : Word
  v2 : Word
  v3 : Word
  deriving DecidableEq

def leNat (bytes : List UInt8) : Nat := bytes.foldr (fun b n => b.toNat + 256 * n) 0

def leWord (bytes : List UInt8) : Word := BitVec.ofNat 64 (leNat bytes)

def initial (key : List UInt8) : State :=
  let k0 := leWord (key.take 8)
  let k1 := leWord ((key.drop 8).take 8)
  ⟨k0 ^^^ 0x736f6d6570736575, k1 ^^^ 0x646f72616e646f6d,
    k0 ^^^ 0x6c7967656e657261, k1 ^^^ 0x7465646279746573⟩

def round (s : State) : State :=
  let v0 := s.v0 + s.v1
  let v2 := s.v2 + s.v3
  let v1 := s.v1.rotateLeft 13 ^^^ v0
  let v3 := s.v3.rotateLeft 16 ^^^ v2
  let v0 := v0.rotateLeft 32
  let v2 := v2 + v1
  let v0 := v0 + v3
  let v1 := v1.rotateLeft 17 ^^^ v2
  let v3 := v3.rotateLeft 21 ^^^ v0
  ⟨v0, v1, v2.rotateLeft 32, v3⟩

/-- The words of a message, the last one with the length in its top byte. -/
def words (msg : List UInt8) : List Word :=
  (List.range (msg.length / 8)).map (fun i => leWord ((msg.drop (i * 8)).take 8)) ++
    [BitVec.ofNat 64 (leNat (msg.drop (msg.length / 8 * 8)) + msg.length % 256 * 2 ^ 56)]

def absorb (c : Nat) (s : State) (m : Word) : State :=
  let s := round^[c] { s with v3 := s.v3 ^^^ m }
  { s with v0 := s.v0 ^^^ m }

def finish (d : Nat) (s : State) : Word :=
  let s := round^[d] { s with v2 := s.v2 ^^^ 0xff }
  s.v0 ^^^ s.v1 ^^^ s.v2 ^^^ s.v3

/-- `SipHash-c-d(key, msg)` for a key of 16 bytes. -/
def sipHash (c d : Nat) (key msg : List UInt8) : Word :=
  finish d ((words msg).foldl (absorb c) (initial key))

-- The published example: a key of 00 to 0f, and a message of 00 to 0e.
example : sipHash 2 4 ((List.range 16).map UInt8.ofNat) ((List.range 15).map UInt8.ofNat) =
    0xa129ca6149be45e5 := by decide +kernel

@[simp] theorem leNat_cons (b : UInt8) (bytes : List UInt8) :
    leNat (b :: bytes) = b.toNat + 256 * leNat bytes := rfl

theorem leNat_append (xs ys : List UInt8) :
    leNat (xs ++ ys) = leNat xs + leNat ys * 2 ^ (8 * xs.length) := by
  induction xs with
  | nil => simp [leNat]
  | cons b xs ih =>
      rw [List.cons_append, leNat_cons, leNat_cons, ih, List.length_cons, Nat.mul_succ, Nat.pow_add]
      ring

theorem leNat_lt (xs : List UInt8) : leNat xs < 2 ^ (8 * xs.length) := by
  induction xs with
  | nil => simp [leNat]
  | cons b xs ih =>
      have hb := b.toNat_lt
      rw [leNat_cons, List.length_cons, Nat.mul_succ, Nat.pow_add]
      omega

theorem words_of_dvd {msg : List UInt8} (h : 8 ∣ msg.length) :
    words msg =
      (List.range (msg.length / 8)).map (fun i => leWord ((msg.drop (i * 8)).take 8)) ++
        [BitVec.ofNat 64 (msg.length % 256 * 2 ^ 56)] := by
  have hrest : msg.drop (msg.length / 8 * 8) = [] := by
    rw [Nat.div_mul_cancel h, List.drop_length]
  rw [words, hrest]
  congr 3
  exact Nat.zero_add _

end Marlin.Library.SipHash
