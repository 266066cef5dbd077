/-! The constants that all participants agree on. -/

namespace ProofOfWork.Params

/-- The revision of the DAG file format, which is part of a DAG file's name. -/
def revision : UInt32 := 23

/-- The dataset size at epoch 0, before rounding. -/
def datasetBytesInit : Nat := 1024 * 1024 * 1024

/-- What an epoch adds to the dataset size. -/
def datasetBytesGrowth : Nat := 8 * 1024 * 1024

/-- The cache size at epoch 0, before rounding. -/
def cacheBytesInit : Nat := 1024 * 1024 * 1024

/-- What an epoch adds to the cache size. -/
def cacheBytesGrowth : Nat := 128 * 1024

/-- The blocks of an epoch. -/
def epochLength : Nat := 30000

/-- The bytes of a mix, which is also the page that a hash reads at a time. -/
def mixBytes : Nat := 128

/-- The bytes of a node. -/
def nodeBytes : Nat := 64

/-- The last epoch whose dataset has no more nodes than there are indices of 32 bits, before
rounding. -/
def maxEpoch : Nat := (UInt32.size * nodeBytes - datasetBytesInit) / datasetBytesGrowth

/-- The cache nodes that go into a dataset node. -/
def datasetParents : Nat := 256

/-- The passes over the cache that harden it. -/
def cacheRounds : Nat := 3

/-- The pages that a hash reads. -/
def accesses : Nat := 64

/-- The bytes before the dataset in a DAG file. -/
def magicBytes : Nat := 8

/-- The number at the start of a complete DAG file. -/
def magic : UInt64 := 0xFEE1DEADBADDCAFE

/-- The 32-bit words of a node. -/
def nodeWords : Nat := nodeBytes / 4

/-- The 32-bit words of a mix. -/
def mixWords : Nat := mixBytes / 4

/-- The nodes of a page. -/
def mixNodes : Nat := mixWords / nodeWords

end ProofOfWork.Params
