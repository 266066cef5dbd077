import ProofOfWork.Caller
import ProofOfWork.Epoch
import ProofOfWork.Hashimoto

/-! Light clients, which hold a cache and compute the dataset nodes that a hash needs. -/

namespace ProofOfWork

/-- A cache with the seed it was built from. -/
structure LightClient where
  cache : Cache
  seed : Hash256
  /-- The block the cache was built for, if it was built for one. -/
  block : Option UInt64

namespace LightClient

open Caller

/-- Builds a cache and notes it in the log. -/
def buildCache (H : Hasher) (size : UInt64) (seed : Hash256) :
    Program Caller (Except Error Cache) := do
  match Cache.nodeCount size.toNat with
  | .error e => return .error (.invalid e)
  | .ok ⟨n, h⟩ =>
    log (.buildingCache size.toNat (n + 1))
    let cache := Cache.ofSeed H n h seed
    log .cacheReady
    return .ok cache

/-- A client for a cache of an explicit size and seed. It belongs to no epoch. -/
def ofSeed (H : Hasher) (size : UInt64) (seed : Hash256) :
    Program Caller (Except Error LightClient) := do
  return (← buildCache H size seed).map fun cache => ⟨cache, seed, none⟩

/-- A client for the epoch of a block. -/
def ofBlock (H : Hasher) (block : UInt64) : Program Caller (Except Error LightClient) := do
  match Epoch.check block with
  | .error e => return .error (.invalid e)
  | .ok _ =>
    let seed := Epoch.seed H block
    return (← buildCache H (Epoch.cacheSize block) seed).map fun cache =>
      ⟨cache, seed, some block⟩

/-- The block of a client that belongs to an epoch. -/
def epochBlock (l : LightClient) : Except Invalid UInt64 :=
  match l.block with
  | some block => .ok block
  | none => .error .noEpoch

/-- The hash over a dataset of `size` bytes. -/
def computeWithSize (H : Hasher) (l : LightClient) (size : UInt64) (header : Hash256)
    (nonce : UInt64) : Except Invalid PowHash :=
  Hashimoto.light H l.cache size.toNat header nonce

/-- The hash over the dataset of the client's epoch. -/
def compute (H : Hasher) (l : LightClient) (header : Hash256) (nonce : UInt64) :
    Except Invalid PowHash := do
  computeWithSize H l (Epoch.datasetSize (← l.epochBlock)) header nonce

/-- The text that shows a client to a developer. -/
def debug (l : LightClient) : String :=
  let block :=
    match l.block with
    | some block => "Some(" ++ toString block.toNat ++ ")"
    | none => "None"
  "Light \x7b block_number: " ++ block ++ ", cache_size: " ++ toString l.cache.sizeBytes ++ " \x7d"

end LightClient

end ProofOfWork
