import ProofOfWork.Keccak.Sponge

/-! The two hash functions of the proof of work. All that is built on them takes them as a
parameter. -/

namespace ProofOfWork

/-- A hash of 32 bytes. -/
abbrev Hash256 := ByteVector 32

/-- A hash of 64 bytes. -/
abbrev Hash512 := ByteVector 64

/-- A pair of hash functions. -/
structure Hasher where
  hash256 : ByteArray → Hash256
  hash512 : ByteArray → Hash512

/-- The pair that is in use. -/
def Hasher.keccak : Hasher := ⟨Keccak.hash256, Keccak.hash512⟩

end ProofOfWork
