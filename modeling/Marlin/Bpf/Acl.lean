import Marlin.Bpf.Stats

/-!
# Source filtering

`acl.c`.  A trie lookup with a full-width key finds an entry exactly when a
stored prefix covers the address; the value found is never read.
-/

namespace Marlin

open Marlin.Library

def Be32.toNat (v : Be32) : Nat :=
  v.b0.toNat * 16777216 + v.b1.toNat * 65536 + v.b2.toNat * 256 + v.b3.toNat

def Addr.toNat (a : Addr) : Nat :=
  ((a.w0.toNat * 2 ^ 32 + a.w1.toNat) * 2 ^ 32 + a.w2.toNat) * 2 ^ 32 + a.w3.toNat

def prefixMatches (width prefixlen entry addr : Nat) : Bool :=
  entry / 2 ^ (width - prefixlen) == addr / 2 ^ (width - prefixlen)

/-- `bpf_map_lookup_elem(trie, &key) != NULL` for a full-width IPv4 key. -/
def aclLookup4 (trie : Table AclKey4 Nat) (addr : Be32) : Bool :=
  trie.keys.any fun k => prefixMatches 32 k.prefixlen k.addr.toNat addr.toNat

def aclLookup6 (trie : Table AclKey6 Nat) (addr : Addr) : Bool :=
  trie.keys.any fun k => prefixMatches 128 k.prefixlen k.addr.toNat addr.toNat

def aclCheckV4 (maps : Maps) (mctx : MarlinCtx) : MarlinAclVerdict :=
  if mctx.cfg.aclLists &&& aclListsBit .allow .v4 ≠ 0 ∧
      aclLookup4 maps.aclAllowV4 mctx.tuple.src.w0 then .allow
  else if mctx.cfg.aclLists &&& aclListsBit .block .v4 ≠ 0 ∧
      aclLookup4 maps.aclBlockV4 mctx.tuple.src.w0 then .block
  else .none

def aclCheckV6 (maps : Maps) (mctx : MarlinCtx) : MarlinAclVerdict :=
  if mctx.cfg.aclLists &&& aclListsBit .allow .v6 ≠ 0 ∧
      aclLookup6 maps.aclAllowV6 mctx.tuple.src then .allow
  else if mctx.cfg.aclLists &&& aclListsBit .block .v6 ≠ 0 ∧
      aclLookup6 maps.aclBlockV6 mctx.tuple.src then .block
  else .none

def marlinAclCheck (maps : Maps) (mctx : MarlinCtx) : MarlinAclVerdict :=
  if mctx.cfg.flags &&& cfgAclEnable = 0 then .none
  else if mctx.tuple.family = afInet then aclCheckV4 maps mctx
  else if mctx.tuple.family = afInet6 then aclCheckV6 maps mctx
  else .none

end Marlin
