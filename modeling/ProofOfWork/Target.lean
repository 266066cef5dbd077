import ProofOfWork.Hashimoto

/-! Targets. A hash meets a boundary if it is at most the boundary, both read as big-endian numbers
of 256 bits. The boundary of a difficulty is `2 ^ 256` divided by it. -/

namespace ProofOfWork.Target

/-- Whether the first list of bytes is at most the second, the most significant byte first. -/
def atMost : List UInt8 → List UInt8 → Bool
  | a :: as, b :: bs => if a = b then atMost as bs else a < b
  | _, _ => true

/-- Whether a hash meets a boundary. -/
def meets (hash boundary : Hash256) : Bool := atMost hash.toList boundary.toList

/-- Digits to the base 256 of `remainder / divisor` after the point, by long division. -/
def quotientBytes (divisor : Nat) : (count remainder : Nat) → List UInt8
  | 0, _ => []
  | count + 1, remainder =>
    let current := remainder * 256
    (current / divisor).toUInt8 :: quotientBytes divisor count (current % divisor)

theorem length_quotientBytes (divisor count remainder : Nat) :
    (quotientBytes divisor count remainder).length = count := by
  induction count generalizing remainder with
  | zero => rfl
  | succ count ih => simp [quotientBytes, ih]

/-- The boundary of a difficulty. Difficulties 0 and 1 have the greatest boundary. -/
def ofDifficulty (difficulty : UInt64) : Hash256 :=
  if difficulty ≤ 1 then .replicate 0xFF
  else ⟨⟨(quotientBytes difficulty.toNat 32 1).toArray⟩, length_quotientBytes ..⟩

/-- The hash that a claimed mix digest leads to. Whether the digest is right is not checked. -/
def quickHash (H : Hasher) (header : Hash256) (nonce : UInt64) (mixHash : Hash256) : Hash256 :=
  Hashimoto.finalHash H (Hashimoto.seedHash H header nonce) mixHash

/-- Whether the hash that a claimed mix digest leads to meets a boundary. -/
def quickMeets (H : Hasher) (header : Hash256) (nonce : UInt64) (mixHash boundary : Hash256) :
    Bool :=
  meets (quickHash H header nonce mixHash) boundary

end ProofOfWork.Target
