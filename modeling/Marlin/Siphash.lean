import Marlin.Abi

/-!
# SipHash

The two transcriptions of SipHash-2-4 that the program carries: `hash.c` for the
control plane's table generation and `siphash.h` for the datapath.  Both consume
whole 8-byte blocks only, so the tail block carries the length alone.
-/

namespace Marlin

structure SipState where
  v0 : UInt64
  v1 : UInt64
  v2 : UInt64
  v3 : UInt64
  deriving DecidableEq, Repr

def rotl (x : UInt64) (b : UInt64) : UInt64 := (x <<< b) ||| (x >>> (64 - b))

def le64 (buf : List UInt8) (off : Nat) : UInt64 :=
  let byte (i : Nat) : UInt64 := (buf.getD (off + i) 0).toUInt64
  byte 0 ||| (byte 1 <<< 8) ||| (byte 2 <<< 16) ||| (byte 3 <<< 24) |||
    (byte 4 <<< 32) ||| (byte 5 <<< 40) ||| (byte 6 <<< 48) ||| (byte 7 <<< 56)

def siphashRound (s : SipState) : SipState :=
  let s := { s with v0 := s.v0 + s.v1 }
  let s := { s with v1 := rotl s.v1 13 }
  let s := { s with v1 := s.v1 ^^^ s.v0 }
  let s := { s with v0 := rotl s.v0 32 }
  let s := { s with v2 := s.v2 + s.v3 }
  let s := { s with v3 := rotl s.v3 16 }
  let s := { s with v3 := s.v3 ^^^ s.v2 }
  let s := { s with v0 := s.v0 + s.v3 }
  let s := { s with v3 := rotl s.v3 21 }
  let s := { s with v3 := s.v3 ^^^ s.v0 }
  let s := { s with v2 := s.v2 + s.v1 }
  let s := { s with v1 := rotl s.v1 17 }
  let s := { s with v1 := s.v1 ^^^ s.v2 }
  { s with v2 := rotl s.v2 32 }

def sipInit (key : Key16) : SipState :=
  let k0 := le64 key.toList 0
  let k1 := le64 key.toList 8
  { v0 := k0 ^^^ 0x736f6d6570736575
    v1 := k1 ^^^ 0x646f72616e646f6d
    v2 := k0 ^^^ 0x6c7967656e657261
    v3 := k1 ^^^ 0x7465646279746573 }

/-- One message block: two compression rounds around the block word. -/
def sipBlock (s : SipState) (word : UInt64) : SipState :=
  let s := { s with v3 := s.v3 ^^^ word }
  let s := siphashRound (siphashRound s)
  { s with v0 := s.v0 ^^^ word }

def sipFinish (s : SipState) : UInt64 :=
  let s := { s with v2 := s.v2 ^^^ 0xff }
  let s := siphashRound (siphashRound (siphashRound (siphashRound s)))
  s.v0 ^^^ s.v1 ^^^ s.v2 ^^^ s.v3

def marlindSiphash (data : List UInt8) (len : Nat) (key : Key16) : UInt64 :=
  let s := (List.range (len / 8)).foldl
    (fun s i => sipBlock s (le64 data (i * 8))) (sipInit key)
  sipFinish (sipBlock s (UInt64.ofNat len <<< 56))

/-! ## The datapath's transcription -/

def marlinSipRotl (x : UInt64) (b : UInt64) : UInt64 := (x <<< b) ||| (x >>> (64 - b))

def marlinSipround (s : SipState) : SipState :=
  let s := { s with v0 := s.v0 + s.v1 }
  let s := { s with v1 := marlinSipRotl s.v1 13 }
  let s := { s with v1 := s.v1 ^^^ s.v0 }
  let s := { s with v0 := marlinSipRotl s.v0 32 }
  let s := { s with v2 := s.v2 + s.v3 }
  let s := { s with v3 := marlinSipRotl s.v3 16 }
  let s := { s with v3 := s.v3 ^^^ s.v2 }
  let s := { s with v0 := s.v0 + s.v3 }
  let s := { s with v3 := marlinSipRotl s.v3 21 }
  let s := { s with v3 := s.v3 ^^^ s.v0 }
  let s := { s with v2 := s.v2 + s.v1 }
  let s := { s with v1 := marlinSipRotl s.v1 17 }
  let s := { s with v1 := s.v1 ^^^ s.v2 }
  { s with v2 := marlinSipRotl s.v2 32 }

def marlinSiphashLe64 (buf : List UInt8) (off : Nat) : UInt64 :=
  let byte (i : Nat) : UInt64 := (buf.getD (off + i) 0).toUInt64
  byte 0 ||| (byte 1 <<< 8) ||| (byte 2 <<< 16) ||| (byte 3 <<< 24) |||
    (byte 4 <<< 32) ||| (byte 5 <<< 40) ||| (byte 6 <<< 48) ||| (byte 7 <<< 56)

def marlinSiphashBlocks (data : List UInt8) (len : Nat) (key : Key16) : UInt64 :=
  let k0 := marlinSiphashLe64 key.toList 0
  let k1 := marlinSiphashLe64 key.toList 8
  let start : SipState :=
    { v0 := k0 ^^^ 0x736f6d6570736575
      v1 := k1 ^^^ 0x646f72616e646f6d
      v2 := k0 ^^^ 0x6c7967656e657261
      v3 := k1 ^^^ 0x7465646279746573 }
  let s := (List.range (len / 8)).foldl
    (fun s i =>
      let word := marlinSiphashLe64 data (i * 8)
      let s : SipState := { s with v3 := s.v3 ^^^ word }
      let s := marlinSipround (marlinSipround s)
      { s with v0 := s.v0 ^^^ word }) start
  let tail := UInt64.ofNat len <<< 56
  let s := { s with v3 := s.v3 ^^^ tail }
  let s := marlinSipround (marlinSipround s)
  let s := { s with v0 := s.v0 ^^^ tail }
  let s := { s with v2 := s.v2 ^^^ 0xff }
  let s := marlinSipround (marlinSipround (marlinSipround (marlinSipround s)))
  s.v0 ^^^ s.v1 ^^^ s.v2 ^^^ s.v3

def marlinSiphash (data : List UInt8) (key : Key16) : UInt64 :=
  marlinSiphashBlocks data data.length key

end Marlin
