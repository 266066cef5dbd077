import ProofOfWork.Hasher
import ProofOfWork.Invalid
import ProofOfWork.Prime

/-! Epochs. The blocks of an epoch share a seed and the sizes of cache and dataset, which grow from
epoch to epoch. Blocks past the last epoch have the seed and sizes of the last one. -/

namespace ProofOfWork.Epoch

/-- The epoch of a block. -/
def ofBlock (block : UInt64) : UInt64 := block / Params.epochLength.toUInt64

/-- The epoch of a block that is not past the last one. -/
def check (block : UInt64) : Except Invalid UInt64 :=
  let epoch := ofBlock block
  if Params.maxEpoch < epoch.toNat then .error (.blockTooHigh block.toNat epoch.toNat)
  else .ok epoch

/-- The epoch of a block as it counts for seed and sizes. -/
def clamped (block : UInt64) : Nat := min (ofBlock block).toNat Params.maxEpoch

/-- The greatest number of bytes below `limit` that is an odd prime number of units, found by
stepping down two units at a time. -/
def primeSize (limit unit : Nat) : Nat := unit * Prime.searchDown (limit / unit - 1)

/-- The bytes of the cache for a block. -/
def cacheSize (block : UInt64) : UInt64 :=
  (primeSize (Params.cacheBytesInit + Params.cacheBytesGrowth * clamped block)
    Params.nodeBytes).toUInt64

/-- The bytes of the dataset for a block. -/
def datasetSize (block : UInt64) : UInt64 :=
  (primeSize (Params.datasetBytesInit + Params.datasetBytesGrowth * clamped block)
    Params.mixBytes).toUInt64

/-- Thirty-two zero bytes, hashed `epochs` times. -/
def seedAfter (H : Hasher) : (epochs : Nat) → Hash256
  | 0 => .zero
  | n + 1 => H.hash256 (seedAfter H n).bytes

/-- The seed for a block. -/
def seed (H : Hasher) (block : UInt64) : Hash256 := seedAfter H (clamped block)

end ProofOfWork.Epoch

namespace ProofOfWork

/-- What the blocks of an epoch share. -/
structure EpochInfo where
  epoch : UInt64
  seed : Hash256
  cacheBytes : UInt64
  datasetBytes : UInt64
deriving DecidableEq

namespace EpochInfo

/-- What holds for a block. -/
def ofBlock (H : Hasher) (block : UInt64) : EpochInfo where
  epoch := Epoch.ofBlock block
  seed := Epoch.seed H block
  cacheBytes := Epoch.cacheSize block
  datasetBytes := Epoch.datasetSize block

/-- What holds for a block that is not past the last epoch. -/
def ofBlock? (H : Hasher) (block : UInt64) : Except Invalid EpochInfo := do
  let _ ← Epoch.check block
  return ofBlock H block

end EpochInfo

end ProofOfWork
